import SingleUse.Proofs.Completion
import SingleUse.Proofs.Reporting
import SingleUse.Proofs.Sweep

/-!
# Passes

A *pass* over a source applies the fixes that are found in it.  Fixing a source accepts passes one
after the other until it stops for one of three reasons: the budget is spent, nothing is left that
could be fixed, or the outcome of the next pass is broken and that pass is undone.  So the result
is what some number of passes makes of the source, together with what is found there; and a source
without broken parts never becomes one with broken parts.
-/

namespace SingleUse

/-- The fixes that findings come with. -/
def fixesOf (findings : List Finding) : List Fix := findings.filterMap (·.fix)

namespace FixResult

/-- What becomes of the source of a result when the fixes found in it are applied. -/
def outcome (r : FixResult) : Fix.Outcome := Fix.applyAll r.source (fixesOf r.findings)

/-- The result after one more pass, whose outcome has the given report. -/
def next (r : FixResult) (report : Report) : FixResult where
  source := r.outcome.source
  applied := r.applied + r.outcome.applied.length
  passes := r.passes + 1
  findings := report.findings
  reverted := r.reverted

/-- Whether the findings of a result are those of its source, which may only be broken if the
first source was. -/
def Checked (r : FixResult) (run : Bytes → Except Error Report) (hadError : Bool) : Prop :=
  ∃ report, run r.source = .ok report ∧ report.findings = r.findings
    ∧ (report.hasError → hadError)

end FixResult

/-! ### Accepting and stopping -/

/-- So many passes lead from one result to another, and each of them is accepted. -/
inductive Accepted (run : Bytes → Except Error Report) (hadError : Bool) :
    Nat → FixResult → FixResult → Prop
  | none (r : FixResult) : Accepted run hadError 0 r r
  | pass {k : Nat} {r last : FixResult} {report : Report} (hfixes : fixesOf r.findings ≠ [])
      (hrun : run r.outcome.source = .ok report) (hintact : report.hasError → hadError)
      (hrest : Accepted run hadError k (r.next report) last) :
      Accepted run hadError (k + 1) r last

/-- With so many passes left, fixing stops at a result and gives another one, which differs from
it at most in the mark that a pass was undone. -/
inductive Stops (run : Bytes → Except Error Report) (hadError : Bool) :
    Nat → FixResult → FixResult → Prop
  | spent (r : FixResult) : Stops run hadError 0 r r
  | settled {n : Nat} {r : FixResult} (hfixes : fixesOf r.findings = []) :
      Stops run hadError (n + 1) r r
  | undone {n : Nat} {r : FixResult} {report : Report} (hfixes : fixesOf r.findings ≠ [])
      (hrun : run r.outcome.source = .ok report) (hbroken : report.hasError)
      (hintact : hadError = false) : Stops run hadError (n + 1) r { r with reverted := true }

section

variable {run : Bytes → Except Error Report} {hadError : Bool} {k n : Nat} {r last : FixResult}

/-- Where nothing is left to fix, a result stays as it is. -/
theorem fixPasses_of_settled (h : fixesOf r.findings = []) (n : Nat) :
  fixPasses run hadError n r = .ok r
  := by
  rw [fixesOf] at h
  cases n with
  | zero => rfl
  | succ n => rw [fixPasses, h]

/-- One pass, and then the rest of the passes unless it is undone. -/
theorem fixPasses_succ (h : fixesOf r.findings ≠ []) (n : Nat) :
  fixPasses run hadError (n + 1) r = (do
    let report ← run r.outcome.source
    if report.hasError && !hadError then return { r with reverted := true }
    fixPasses run hadError n (r.next report))
  := by
  rw [fixPasses]
  split
  · rename_i hnone
    exact absurd hnone h
  · rfl

theorem fixPasses_of_error (h : fixesOf r.findings ≠ []) {e : Error}
    (hrun : run r.outcome.source = .error e) (n : Nat) :
  fixPasses run hadError (n + 1) r = .error e
  := by
  rw [fixPasses_succ h, hrun]
  rfl

/-- A pass that breaks a source is undone. -/
theorem fixPasses_of_broken (h : fixesOf r.findings ≠ []) {report : Report}
    (hrun : run r.outcome.source = .ok report) (hbroken : (report.hasError && !hadError) = true)
    (n : Nat) :
  fixPasses run hadError (n + 1) r = .ok { r with reverted := true }
  := by
  rw [fixPasses_succ h, hrun]
  simp only [bind, Except.bind]
  rw [if_pos hbroken]
  rfl

/-- Any other pass is accepted. -/
theorem fixPasses_of_intact (h : fixesOf r.findings ≠ []) {report : Report}
    (hrun : run r.outcome.source = .ok report) (hintact : (report.hasError && !hadError) = false)
    (n : Nat) :
  fixPasses run hadError (n + 1) r = fixPasses run hadError n (r.next report)
  := by
  rw [fixPasses_succ h, hrun]
  simp only [bind, Except.bind]
  rw [if_neg (by simp [hintact])]

/-- Fixing accepts some of the passes that it may make and then stops. -/
theorem fixPasses_inv :
  ∀ {r : FixResult}, fixPasses run hadError n r = .ok last →
    ∃ k left r', n = k + left ∧ Accepted run hadError k r r' ∧ Stops run hadError left r' last
  := by
  induction n with
  | zero =>
    intro r h
    cases h
    exact ⟨0, 0, last, rfl, .none last, .spent last⟩
  | succ n ih =>
    intro r h
    by_cases hfixes : fixesOf r.findings = []
    · rw [fixPasses_of_settled hfixes] at h
      cases h
      exact ⟨0, n + 1, last, by omega, .none last, .settled hfixes⟩
    · rw [fixPasses_succ hfixes] at h
      obtain ⟨report, hrun, h⟩ := exists_ok_of_bind h
      split at h
      · rename_i hbroken
        obtain ⟨hbroken, hintact⟩ := Bool.and_eq_true_iff.mp hbroken
        cases h
        use 0, n + 1, r, by omega, .none r
        exact .undone hfixes hrun hbroken (by simpa using hintact)
      · rename_i hintact
        obtain ⟨k, left, r', rfl, haccepted, hstops⟩ := ih h
        use k + 1, left, r', by omega
        exact ⟨.pass hfixes hrun (by simpa using hintact) haccepted, hstops⟩

/-! ### What passes change -/

/-- Stopping leaves all as it is but the mark. -/
theorem Stops.eq (h : Stops run hadError n r last) :
  last = { r with reverted := last.reverted }
  := by
  cases h <;> rfl

theorem Accepted.passes_eq (h : Accepted run hadError k r last) :
  last.passes = r.passes + k
  := by
  induction h with
  | none => rfl
  | @pass k r last report _ _ _ _ ih =>
    have hnext : (r.next report).passes = r.passes + 1 := rfl
    omega

theorem Accepted.reverted_eq (h : Accepted run hadError k r last) :
  last.reverted = r.reverted
  := by
  induction h with
  | none => rfl
  | pass _ _ _ _ ih => exact ih

/-- If there are fixes, one is applied: the first overlaps none before it. -/
theorem Fix.applied_pos {source : Bytes} {fixes : List Fix} (h : fixes ≠ []) :
  0 < (applyAll source fixes).applied.length
  := by
  obtain ⟨fix, rest, rfl⟩ := List.exists_cons_of_ne_nil h
  simp [applyAll, sift]

/-- Every accepted pass applies a fix. -/
theorem Accepted.applied_eq (h : Accepted run hadError k r last) :
  ∃ count, last.applied = r.applied + count ∧ k ≤ count ∧ (k = 0 → count = 0)
  := by
  induction h with
  | none r => exact ⟨0, rfl, Nat.le_refl 0, fun _ => rfl⟩
  | @pass k r last report hfixes _ _ _ ih =>
    obtain ⟨count, hcount, hle, -⟩ := ih
    have hpos : 0 < r.outcome.applied.length := Fix.applied_pos hfixes
    use r.outcome.applied.length + count
    refine ⟨?_, by omega, by omega⟩
    rw [hcount, FixResult.next, Nat.add_assoc]

/-- The findings are kept up to date. -/
theorem Accepted.checked (h : Accepted run hadError k r last) (hchecked : r.Checked run hadError) :
  last.Checked run hadError
  := by
  induction h with
  | none => exact hchecked
  | pass _ hrun hintact _ ih => exact ih ⟨_, hrun, rfl, hintact⟩

theorem Stops.checked (h : Stops run hadError n r last) (hchecked : r.Checked run hadError) :
  last.Checked run hadError
  := by
  rw [h.eq]
  exact hchecked

end

namespace Rule

/-! ### Passes over a source -/

/-- What one pass makes of a source. -/
def pass (rule : Rule) (path language : Option String) (source : Bytes) : Except Error Bytes := do
  let findings ← rule.check source path language
  return (Fix.applyAll source (fixesOf findings)).source

/-- What so many passes make of a source. -/
def passes (rule : Rule) (path language : Option String) : Nat → Bytes → Except Error Bytes
  | 0, source => .ok source
  | n + 1, source => do rule.passes path language n (← rule.pass path language source)

/-- Whether the parser finds broken parts in a source. -/
def Broken (rule : Rule) (path language : Option String) (source : Bytes) : Prop :=
  ∃ chosen parsed, rule.languages.choose path language = .ok chosen
    ∧ rule.parse source chosen path = .ok parsed ∧ parsed.hasError

/-- Whether a source has a language and a tree. -/
def Parses (rule : Rule) (path language : Option String) (source : Bytes) : Prop :=
  ∃ chosen parsed, rule.languages.choose path language = .ok chosen
    ∧ rule.parse source chosen path = .ok parsed

variable {rule : Rule} {path language : Option String} {chosen : Language} {source : Bytes}
  {report : Report} {hadError : Bool} {k : Nat} {r last : FixResult}

/-- A source is parsed for its report. -/
theorem report_inv (h : rule.report chosen path source = .ok report) :
  ∃ parsed, rule.parse source chosen path = .ok parsed ∧ report.hasError = parsed.hasError
  := by
  obtain ⟨⟨a, hasError⟩, hanalyze, h⟩ := exists_ok_of_bind h
  obtain ⟨reported, -, h⟩ := exists_ok_of_bind h
  obtain ⟨parsed, hparse, hanalyze⟩ := exists_ok_of_bind hanalyze
  obtain ⟨a', -, hanalyze⟩ := exists_ok_of_bind hanalyze
  cases h
  cases hanalyze
  exact ⟨parsed, hparse, rfl⟩

theorem broken_iff (hchosen : rule.languages.choose path language = .ok chosen)
    (h : rule.report chosen path source = .ok report) :
  rule.Broken path language source ↔ report.hasError
  := by
  obtain ⟨parsed, hparse, herror⟩ := report_inv h
  constructor
  · rintro ⟨chosen', parsed', hchosen', hparse', herror'⟩
    obtain rfl := Except.ok.inj (hchosen.symm.trans hchosen')
    obtain rfl := Except.ok.inj (hparse.symm.trans hparse')
    exact herror.trans herror'
  · intro herror'
    exact ⟨chosen, parsed, hchosen, hparse, herror.symm.trans herror'⟩

theorem check_eq (hchosen : rule.languages.choose path language = .ok chosen)
    (h : rule.report chosen path source = .ok report) :
  rule.check source path language = .ok report.findings
  := by
  rw [check, hchosen]
  simp only [bind, Except.bind]
  rw [h]
  rfl

/-- Fixing a source that can be checked. -/
theorem fix_eq (hchosen : rule.languages.choose path language = .ok chosen)
    (h : rule.report chosen path source = .ok report) (maxPasses : Int) :
  rule.fix source path language maxPasses
    = fixPasses (rule.report chosen path) report.hasError maxPasses.toNat
        { source, findings := report.findings }
  := by
  rw [fix, hchosen]
  simp only [bind, Except.bind]
  rw [h]

/-- A source is checked before it is fixed. -/
theorem fix_inv {maxPasses : Int} {result : FixResult}
    (h : rule.fix source path language maxPasses = .ok result) :
  ∃ chosen report, rule.languages.choose path language = .ok chosen
    ∧ rule.report chosen path source = .ok report
    ∧ fixPasses (rule.report chosen path) report.hasError maxPasses.toNat
        { source, findings := report.findings } = .ok result
  := by
  obtain ⟨chosen, hchosen, h⟩ := exists_ok_of_bind h
  obtain ⟨report, hreport, h⟩ := exists_ok_of_bind h
  exact ⟨chosen, report, hchosen, hreport, h⟩

/-- A pass over a source that can be checked. -/
theorem pass_eq (hchosen : rule.languages.choose path language = .ok chosen)
    (h : rule.report chosen path source = .ok report) :
  rule.pass path language source = .ok (Fix.applyAll source (fixesOf report.findings)).source
  := by
  rw [pass, check_eq hchosen h]
  rfl

/-- A pass over the source of a checked result. -/
theorem pass_of_checked (hchosen : rule.languages.choose path language = .ok chosen)
    (h : r.Checked (rule.report chosen path) hadError) :
  rule.pass path language r.source = .ok r.outcome.source
  := by
  obtain ⟨report, hreport, hfindings, -⟩ := h
  rw [pass_eq hchosen hreport, hfindings]
  rfl

theorem passes_succ_of_checked (hchosen : rule.languages.choose path language = .ok chosen)
    (h : r.Checked (rule.report chosen path) hadError) (n : Nat) :
  rule.passes path language (n + 1) r.source = rule.passes path language n r.outcome.source
  := by
  rw [passes, pass_of_checked hchosen h]
  rfl

/-- The source of a checked result is not broken if the first one was not. -/
theorem not_broken_of_checked (hchosen : rule.languages.choose path language = .ok chosen)
    (h : r.Checked (rule.report chosen path) false) :
  ¬ rule.Broken path language r.source
  := by
  obtain ⟨report, hreport, -, hintact⟩ := h
  rw [broken_iff hchosen hreport]
  intro herror
  exact Bool.false_ne_true (hintact herror)

/-- The accepted passes are passes over the source. -/
theorem passes_of_accepted (hchosen : rule.languages.choose path language = .ok chosen)
    (h : Accepted (rule.report chosen path) hadError k r last)
    (hchecked : r.Checked (rule.report chosen path) hadError) :
  rule.passes path language k r.source = .ok last.source
  := by
  induction h with
  | none => rfl
  | pass _ hrun hintact _ ih =>
    rw [passes_succ_of_checked hchosen hchecked]
    exact ih ⟨_, hrun, rfl, hintact⟩

/-- On the way of the accepted passes no source is broken if the first one is not. -/
theorem not_broken_of_accepted (hchosen : rule.languages.choose path language = .ok chosen)
    (h : Accepted (rule.report chosen path) false k r last)
    (hchecked : r.Checked (rule.report chosen path) false) :
  ∀ n ≤ k, ∀ s, rule.passes path language n r.source = .ok s → ¬ rule.Broken path language s
  := by
  induction h with
  | none r =>
    intro n hn s hs
    obtain rfl := Nat.le_zero.mp hn
    cases hs
    exact not_broken_of_checked hchosen hchecked
  | pass _ hrun hintact _ ih =>
    intro n hn s hs
    cases n with
    | zero =>
      cases hs
      exact not_broken_of_checked hchosen hchecked
    | succ n =>
      rw [passes_succ_of_checked hchosen hchecked] at hs
      exact ih ⟨_, hrun, rfl, hintact⟩ n (Nat.le_of_succ_le_succ hn) s hs

/-- Fixing gives a result if what the passes make of the source can be checked. -/
theorem exists_fixPasses (hchosen : rule.languages.choose path language = .ok chosen) {n : Nat} :
  ∀ {r : FixResult}, r.Checked (rule.report chosen path) hadError →
    (∀ k ≤ n, ∀ s, rule.passes path language k r.source = .ok s →
      ∃ report, rule.report chosen path s = .ok report) →
      ∃ last, fixPasses (rule.report chosen path) hadError n r = .ok last
  := by
  induction n with
  | zero => exact fun {r} _ _ => ⟨r, rfl⟩
  | succ n ih =>
    intro r hchecked hreports
    by_cases hfixes : fixesOf r.findings = []
    · exact ⟨r, fixPasses_of_settled hfixes _⟩
    · rw [fixPasses_succ hfixes]
      apply exists_ok_bind
      · apply hreports 1 (by omega)
        exact passes_succ_of_checked hchosen hchecked 0
      · intro report hrun
        split
        · exact ⟨_, rfl⟩
        · rename_i hintact
          have hnext : (r.next report).Checked (rule.report chosen path) hadError :=
            ⟨report, hrun, rfl, by simpa using hintact⟩
          apply ih hnext
          intro k hk s hs
          apply hreports (k + 1) (by omega)
          rw [passes_succ_of_checked hchosen hchecked]
          exact hs

/-! ### The result of fixing -/

/-- What is promised of the result of fixing a source. -/
structure Fixed (rule : Rule) (source : Bytes) (path language : Option String) (maxPasses : Int)
    (result : FixResult) : Prop where
  /-- No more passes are made than may be. -/
  passes_le : (result.passes : Int) ≤ max 0 maxPasses
  /-- Every pass applies a fix. -/
  passes_le_applied : result.passes ≤ result.applied
  /-- The source is changed if there was a pass. -/
  changed : result.changed ↔ 0 < result.passes
  /-- The findings are those of the source as it is in the end. -/
  findings : rule.check result.source path language = .ok result.findings
  /-- That source is what the passes make of the first one. -/
  reached : rule.passes path language result.passes source = .ok result.source
  /-- No pass that counts breaks a source that was not broken. -/
  intact : ¬ rule.Broken path language source → ∀ n ≤ result.passes, ∀ s,
    rule.passes path language n source = .ok s → ¬ rule.Broken path language s
  /-- A pass is only undone if it breaks a source that was not broken. -/
  reverted : result.reverted → ¬ rule.Broken path language source
    ∧ ∃ s, rule.pass path language result.source = .ok s ∧ rule.Broken path language s
  /-- If passes are left and none was undone, nothing is left to fix. -/
  settled : result.passes < maxPasses → result.reverted = false →
    ∀ f ∈ result.findings, f.fix = none

/-- Accepted passes that come to a stop give a result as it is promised. -/
theorem fixed_of_accepted {maxPasses : Int} {left : Nat} {r' : FixResult}
    (hchosen : rule.languages.choose path language = .ok chosen)
    (hreport : rule.report chosen path source = .ok report)
    (hbudget : maxPasses.toNat = k + left)
    (haccepted : Accepted (rule.report chosen path) report.hasError k
      { source, findings := report.findings } r')
    (hstops : Stops (rule.report chosen path) report.hasError left r' last) :
  rule.Fixed source path language maxPasses last
  := by
  have hfirst : FixResult.Checked { source, findings := report.findings }
      (rule.report chosen path) report.hasError := ⟨report, hreport, rfl, id⟩
  have hpasses : r'.passes = k := by simpa using haccepted.passes_eq
  have hreverted : r'.reverted = false := haccepted.reverted_eq
  obtain ⟨count, hcount, hle, hzero⟩ := haccepted.applied_eq
  have happlied : r'.applied = count := by simpa using hcount
  have hchecked := haccepted.checked hfirst
  have hsource := passes_of_accepted hchosen haccepted hfirst
  have hsourceEq := congrArg FixResult.source hstops.eq
  have hpassesEq := congrArg FixResult.passes hstops.eq
  have happliedEq := congrArg FixResult.applied hstops.eq
  simp only at hsourceEq hpassesEq happliedEq
  exact {
    passes_le := by omega
    passes_le_applied := by omega
    changed := by
      rw [FixResult.changed, decide_eq_true_eq]
      omega
    findings := by
      obtain ⟨report', hreport', hfindings, -⟩ := hstops.checked hchecked
      rw [← hfindings]
      exact check_eq hchosen hreport'
    reached := by
      rw [hpassesEq, hpasses, hsourceEq]
      exact hsource
    intact := by
      intro hunbroken n hn
      rw [broken_iff hchosen hreport, Bool.not_eq_true] at hunbroken
      rw [hunbroken] at haccepted hfirst
      exact not_broken_of_accepted hchosen haccepted hfirst n (by omega)
    reverted := by
      intro hundone
      cases hstops with
      | spent => simp [hreverted] at hundone
      | settled => simp [hreverted] at hundone
      | undone _ hrun hbroken hintact =>
        constructor
        · simp [broken_iff hchosen hreport, hintact]
        · exact ⟨_, pass_of_checked hchosen hchecked, (broken_iff hchosen hrun).mpr hbroken⟩
    settled := by
      intro hlt hkept
      cases hstops with
      | spent => omega
      | settled hfixes => exact List.filterMap_eq_nil_iff.mp hfixes
      | undone => simp at hkept }

/-- The result of fixing is as promised; and there is a result, if the options are sound and
whatever passes make of the source can be parsed. -/
theorem fix_fixed (rule : Rule) (source : Bytes) (path language : Option String)
    (maxPasses : Int) :
  (∀ result, rule.fix source path language maxPasses = .ok result →
      rule.Fixed source path language maxPasses result)
    ∧ (rule.options.problem? = none →
      (∀ n ≤ maxPasses.toNat, ∀ s, rule.passes path language n source = .ok s →
        rule.Parses path language s) →
        ∃ result, rule.fix source path language maxPasses = .ok result)
  := by
  constructor
  · intro result h
    obtain ⟨chosen, report, hchosen, hreport, h⟩ := fix_inv h
    obtain ⟨k, left, r', hbudget, haccepted, hstops⟩ := fixPasses_inv h
    exact fixed_of_accepted hchosen hreport hbudget haccepted hstops
  · intro hoptions hparses
    obtain ⟨chosen, -, hchosen, -⟩ := hparses 0 (Nat.zero_le _) source rfl
    have hreports : ∀ k ≤ maxPasses.toNat, ∀ s, rule.passes path language k source = .ok s →
        ∃ report, rule.report chosen path s = .ok report := by
      intro k hk s hs
      obtain ⟨chosen', parsed, hchosen', hparse⟩ := hparses k hk s hs
      obtain rfl := Except.ok.inj (hchosen.symm.trans hchosen')
      exact exists_report hoptions ⟨parsed, hparse⟩
    obtain ⟨report, hreport⟩ := hreports 0 (Nat.zero_le _) source rfl
    rw [fix_eq hchosen hreport]
    exact exists_fixPasses hchosen ⟨report, hreport, rfl, id⟩ hreports

/-! ### Two passes in a row -/

/-- The source `const b = 1; const a = b; f(a);`, which takes two passes. -/
def chained : Bytes × Tree where
  fst := Utf8.encode "const b = 1; const a = b; f(a);"
  snd :=
    .named .program 0 31 none
      [.named .lexicalDeclaration 0 12 none
        [.named .variableDeclarator 6 11 none
          [.named .identifier 6 7 (some .name) [], .named .number 10 11 (some .value) []]],
      .named .lexicalDeclaration 13 25 none
        [.named .variableDeclarator 19 24 none
          [.named .identifier 19 20 (some .name) [], .named .identifier 23 24 (some .value) []]],
      .named .expressionStatement 26 31 none
        [.named .callExpression 26 30 none
          [.named .identifier 26 27 (some .function) [],
          .named .arguments 27 30 (some .arguments) [.named .identifier 28 29 none []]]]]

/-- The source `f(1);`, in which nothing is left to fix. -/
def inlined : Bytes × Tree where
  fst := Utf8.encode "f(1);"
  snd :=
    .named .program 0 5 none
      [.named .expressionStatement 0 5 none
        [.named .callExpression 0 4 none
          [.named .identifier 0 1 (some .function) [],
          .named .arguments 1 4 (some .arguments) [.named .number 2 3 none []]]]]

/-- A rule whose parser knows three sources, each of which is what a pass makes of the one before
it; the parser may take the last one for broken. -/
def twoPasses (broken : Bool) : Rule where
  host.tree? _ source :=
    if source = chained.1 then some ⟨chained.2, false⟩
    else if source = Analysis.readOnce.1 then some ⟨Analysis.readOnce.2, false⟩
    else if source = inlined.1 then some ⟨inlined.2, broken⟩
    else none

/-- A report whose fixes turn the source into another one, one of them being applied. -/
structure Turns (broken : Bool) (source next : Bytes) (report : Report) : Prop where
  report_eq : (twoPasses broken).report .javascript none source = .ok report
  intact : report.hasError = false
  fixable : fixesOf report.findings ≠ []
  source_eq : (Fix.applyAll source (fixesOf report.findings)).source = next
  applied_eq : (Fix.applyAll source (fixesOf report.findings)).applied.length = 1

/-- Without a path and a language the rule takes JavaScript. -/
theorem choose_twoPasses (broken : Bool) :
  (twoPasses broken).languages.choose none none = .ok .javascript
  := by
  rfl

/-- The pass after which the report is known. -/
theorem Turns.fixPasses_succ {broken : Bool} {source next : Bytes} {report report' : Report}
    (h : Turns broken source next report)
    (h' : (twoPasses broken).report .javascript none next = .ok report') (n applied passes : Nat) :
  fixPasses ((twoPasses broken).report .javascript none) false (n + 1)
      { source, findings := report.findings, applied, passes }
    = if report'.hasError then
        .ok { source, findings := report.findings, applied, passes, reverted := true }
      else
        fixPasses ((twoPasses broken).report .javascript none) false n
          { source := next, findings := report'.findings
            applied := applied + 1, passes := passes + 1 }
  := by
  rw [SingleUse.fixPasses_succ h.fixable]
  simp only [FixResult.next, FixResult.outcome, h.source_eq, h.applied_eq, h', bind, Except.bind]
  cases report'.hasError <;> rfl

theorem Turns.passes_succ {broken : Bool} {source next : Bytes} {report : Report}
    (h : Turns broken source next report) (n : Nat) :
  (twoPasses broken).passes none none (n + 1) source
    = (twoPasses broken).passes none none n next
  := by
  rw [passes, pass_eq (choose_twoPasses broken) h.report_eq, h.source_eq]
  rfl

theorem exists_turns {broken : Bool} {source next : Bytes} {fixes : List Fix}
    (hany : ((twoPasses broken).report .javascript none source).toOption.any fun report =>
      report.hasError = false ∧ fixesOf report.findings = fixes)
    (hfixes : fixes ≠ []) (hfits : ∀ fix ∈ fixes, ∀ e ∈ fix.edits, e.Fits source)
    (hapart : ∀ fix ∈ fixes, Fix.Apart fix.edits)
    (himage : Fix.image source (Fix.carriedOut source fixes) 0 source.length = next)
    (happlied : (Fix.applyAll source fixes).applied.length = 1) :
  ∃ report, Turns broken source next report
  := by
  obtain ⟨report, hreport, hfound⟩ := exists_ok_of_any hany
  obtain ⟨hintact, rfl⟩ := of_decide_eq_true hfound
  have hsource := (Fix.source_applyAll hfits hapart).trans himage
  exact ⟨report, hreport, hintact, hfixes, hsource, happlied⟩

theorem exists_turns_chained (broken : Bool) :
  ∃ report, Turns broken chained.1 Analysis.readOnce.1 report
  := by
  have hreport : ((twoPasses broken).report .javascript none chained.1).toOption.any fun report =>
      report.hasError = false ∧ fixesOf report.findings =
        [⟨"b", [⟨⟨0, 13⟩, ""⟩, ⟨⟨23, 24⟩, "1"⟩]⟩, ⟨"a", [⟨⟨13, 26⟩, ""⟩, ⟨⟨28, 29⟩, "b"⟩]⟩] := by
    cases broken <;> decide +kernel
  apply exists_turns hreport (List.cons_ne_nil _ _)
  all_goals decide +kernel

theorem exists_turns_readOnce (broken : Bool) :
  ∃ report, Turns broken Analysis.readOnce.1 inlined.1 report
  := by
  have hreport : ((twoPasses broken).report .javascript none
      Analysis.readOnce.1).toOption.any fun report =>
        report.hasError = false ∧ fixesOf report.findings =
          [⟨"a", [⟨⟨0, 13⟩, ""⟩, ⟨⟨15, 16⟩, "1"⟩]⟩] := by
    cases broken <;> decide +kernel
  apply exists_turns hreport (List.cons_ne_nil _ _)
  all_goals decide +kernel

theorem exists_report_inlined (broken : Bool) :
  ∃ report, (twoPasses broken).report .javascript none inlined.1 = .ok report
    ∧ report.hasError = broken ∧ fixesOf report.findings = []
  := by
  have hany : ((twoPasses broken).report .javascript none inlined.1).toOption.any fun report =>
      report.hasError = broken ∧ fixesOf report.findings = [] := by
    cases broken <;> decide +kernel
  obtain ⟨report, hreport, hany⟩ := exists_ok_of_any hany
  exact ⟨report, hreport, of_decide_eq_true hany⟩

/-- Two passes inline one variable each, and then nothing is left to fix. -/
theorem fix_fixed_chained :
  ∃ result, (twoPasses false).fix chained.1 none none 2 = .ok result
    ∧ result.passes = 2 ∧ result.source = inlined.1
    ∧ (twoPasses false).Fixed chained.1 none none 2 result
  := by
  have hchosen := choose_twoPasses false
  obtain ⟨first, hfirst⟩ := exists_turns_chained false
  obtain ⟨second, hsecond⟩ := exists_turns_readOnce false
  obtain ⟨third, hthird, hintact, hsettled⟩ := exists_report_inlined false
  have hparses : ∀ n ≤ (2 : Int).toNat, ∀ s,
      (twoPasses false).passes none none n chained.1 = .ok s →
        (twoPasses false).Parses none none s := by
    have hparses : ∀ source report, (twoPasses false).report .javascript none source = .ok report →
        (twoPasses false).Parses none none source := by
      intro source report hreport
      obtain ⟨parsed, hparsed, -⟩ := report_inv hreport
      exact ⟨.javascript, parsed, hchosen, hparsed⟩
    intro n hn s hs
    have hn : n = 0 ∨ n = 1 ∨ n = 2 := by
      rw [show (2 : Int).toNat = 2 from rfl] at hn
      omega
    rcases hn with rfl | rfl | rfl
    · cases hs
      exact hparses _ _ hfirst.report_eq
    · rw [hfirst.passes_succ] at hs
      cases hs
      exact hparses _ _ hsecond.report_eq
    · rw [hfirst.passes_succ, hsecond.passes_succ] at hs
      cases hs
      exact hparses _ _ hthird
  obtain ⟨result, hresult⟩ := (fix_fixed (twoPasses false) chained.1 none none 2).2 rfl hparses
  use result, hresult
  have hfixed := (fix_fixed (twoPasses false) chained.1 none none 2).1 result hresult
  rw [fix_eq hchosen hfirst.report_eq, hfirst.intact, show (2 : Int).toNat = 1 + 1 from rfl,
    hfirst.fixPasses_succ hsecond.report_eq, hsecond.intact] at hresult
  rw [if_neg (by decide), hsecond.fixPasses_succ hthird, hintact, if_neg (by decide)] at hresult
  cases hresult
  exact ⟨rfl, rfl, hfixed⟩

end Rule

end SingleUse
