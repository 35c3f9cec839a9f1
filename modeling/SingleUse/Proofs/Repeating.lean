import SingleUse.Proofs.Passes
import SingleUse.Proofs.Transcoding

/-!
# Fixing again

Fixing a text that has been fixed before.  What fixing does depends on the source as it is then,
and on whether the first source was broken; and a source that was not broken does not become so.
Hence fixing in two runs is fixing in one run with both budgets, and a run that stopped before its
budget was spent has nothing to do the second time.
-/

namespace SingleUse

namespace FixResult

/-- The fixed source as a text. -/
def text (r : FixResult) : String := Utf8.decodeLossy r.source

/-- The result with which fixing starts again. -/
def restart (r : FixResult) : FixResult where
  source := r.source
  findings := r.findings

/-- The result of two runs one after the other. -/
def followedBy (first second : FixResult) : FixResult where
  source := second.source
  applied := first.applied + second.applied
  passes := first.passes + second.passes
  findings := second.findings
  reverted := first.reverted || second.reverted

/-- A text that could be decoded is encoded as it was. -/
theorem encode_text {r : FixResult} (h : ∃ text, Utf8.decode r.source = .ok text) :
  Utf8.encode r.text = r.source
  := by
  obtain ⟨text, htext⟩ := h
  rw [FixResult.text, Utf8.decodeLossy_of_decode htext]
  exact Utf8.encode_of_decode htext

theorem followedBy_restart (r : FixResult) :
  r.followedBy r.restart = r
  := by
  cases r
  simp [followedBy, restart]

/-- A pass after a restart counts on top of what was counted before. -/
theorem followedBy_next (r second : FixResult) (report : Report) :
  r.followedBy ((r.restart.next report).followedBy second) = (r.next report).followedBy second
  := by
  simp [followedBy, restart, next, outcome, Nat.add_assoc]

end FixResult

/-! ### Splitting the budget -/

section

variable {run : Bytes → Except Error Report} {hadError : Bool}

/-- Passes from a result on are passes from its restart on, counted on top. -/
theorem fixPasses_restart (n : Nat) :
  ∀ r : FixResult, fixPasses run hadError n r = (do
    let second ← fixPasses run hadError n r.restart
    return r.followedBy second)
  := by
  induction n with
  | zero =>
    intro r
    exact congrArg Except.ok r.followedBy_restart.symm
  | succ n ih =>
    intro r
    by_cases hfixes : fixesOf r.findings = []
    · have hfixes' : fixesOf r.restart.findings = [] := hfixes
      rw [fixPasses_of_settled hfixes, fixPasses_of_settled hfixes']
      exact congrArg Except.ok r.followedBy_restart.symm
    · have hfixes' : fixesOf r.restart.findings ≠ [] := hfixes
      have houtcome : r.restart.outcome = r.outcome := rfl
      cases hrun : run r.outcome.source with
      | error e =>
        rw [fixPasses_of_error hfixes hrun, fixPasses_of_error hfixes' (houtcome ▸ hrun)]
        rfl
      | ok report =>
        have hrun' : run r.restart.outcome.source = .ok report := houtcome ▸ hrun
        cases hbroken : report.hasError && !hadError with
        | true =>
          rw [fixPasses_of_broken hfixes hrun hbroken, fixPasses_of_broken hfixes' hrun' hbroken]
          simp [bind, Except.bind, pure, Except.pure, FixResult.followedBy, FixResult.restart]
        | false =>
          have hrestart : (r.restart.next report).restart = (r.next report).restart := rfl
          rw [fixPasses_of_intact hfixes hrun hbroken, fixPasses_of_intact hfixes' hrun' hbroken,
            ih (r.next report), ih (r.restart.next report), hrestart]
          cases fixPasses run hadError n (r.next report).restart with
          | error e => rfl
          | ok second => exact congrArg Except.ok (r.followedBy_next second report).symm

/-- A result after which a pass is undone stays as it is: the pass is undone every time. -/
theorem fixPasses_of_undone {r : FixResult} {report : Report} (hfixes : fixesOf r.findings ≠ [])
    (hrun : run r.outcome.source = .ok report) (hbroken : (report.hasError && !hadError) = true)
    (n : Nat) :
  fixPasses run hadError n { r with reverted := true } = .ok { r with reverted := true }
  := by
  cases n with
  | zero => rfl
  | succ n => exact fixPasses_of_broken (r := { r with reverted := true }) hfixes hrun hbroken n

/-- Passes with a budget in two parts. -/
theorem fixPasses_add (m n : Nat) :
  ∀ r : FixResult, fixPasses run hadError (m + n) r = (do
    let first ← fixPasses run hadError m r
    let second ← fixPasses run hadError n first.restart
    return first.followedBy second)
  := by
  induction m with
  | zero =>
    intro r
    rw [Nat.zero_add]
    exact fixPasses_restart n r
  | succ m ih =>
    intro r
    rw [Nat.succ_add]
    by_cases hfixes : fixesOf r.findings = []
    · rw [fixPasses_of_settled hfixes, fixPasses_of_settled hfixes]
      exact (fixPasses_of_settled hfixes n).symm.trans (fixPasses_restart n r)
    · cases hrun : run r.outcome.source with
      | error e =>
        rw [fixPasses_of_error hfixes hrun, fixPasses_of_error hfixes hrun]
        rfl
      | ok report =>
        cases hbroken : report.hasError && !hadError with
        | true =>
          rw [fixPasses_of_broken hfixes hrun hbroken, fixPasses_of_broken hfixes hrun hbroken]
          exact (fixPasses_of_undone hfixes hrun hbroken n).symm.trans (fixPasses_restart n _)
        | false =>
          rw [fixPasses_of_intact hfixes hrun hbroken, fixPasses_of_intact hfixes hrun hbroken]
          exact ih (r.next report)

end

namespace Rule

variable {rule : Rule} {path language : Option String} {source : Bytes}

/-- Fixing the source of a result that is not broken goes on from that result. -/
theorem fix_of_checked {chosen : Language} {r : FixResult}
    (hchosen : rule.languages.choose path language = .ok chosen)
    (h : r.Checked (rule.report chosen path) false) (maxPasses : Int) :
  rule.fix r.source path language maxPasses
    = fixPasses (rule.report chosen path) false maxPasses.toNat r.restart
  := by
  obtain ⟨report, hreport, hfindings, hintact⟩ := h
  have hintact : report.hasError = false := by simpa using hintact
  rw [fix_eq hchosen hreport, hintact, hfindings]
  rfl

/-- Fixing a source that is not broken in two runs is fixing it in one run with both budgets, if
the first run leaves a text: source and findings are the same, and the counts add up. -/
theorem fix_add (hunbroken : ¬ rule.Broken path language source) (m n : Nat)
    (hvalid : ∀ first, rule.fix source path language m = .ok first →
      ∃ text, Utf8.decode first.source = .ok text) :
  rule.fix source path language (m + n : Nat) = (do
    let first ← rule.fix source path language m
    let second ← rule.fix (Utf8.encode first.text) path language n
    return {
      source := second.source
      findings := second.findings
      applied := first.applied + second.applied
      passes := first.passes + second.passes
      reverted := first.reverted || second.reverted })
  := by
  cases hchosen : rule.languages.choose path language with
  | error e =>
    simp only [fix, hchosen]
    rfl
  | ok chosen =>
    cases hreport : rule.report chosen path source with
    | error e =>
      simp only [fix, hchosen, bind, Except.bind, hreport]
    | ok report =>
      have hintact : report.hasError = false := by
        simpa [broken_iff hchosen hreport] using hunbroken
      have hstart : FixResult.Checked { source, findings := report.findings }
          (rule.report chosen path) false := ⟨report, hreport, rfl, by simp [hintact]⟩
      have hfix := fix_of_checked hchosen hstart
      rw [hfix] at hvalid ⊢
      rw [hfix]
      simp only [Int.toNat_natCast] at hvalid ⊢
      rw [fixPasses_add]
      cases hfirst : fixPasses (rule.report chosen path) false m
          (FixResult.restart { source, findings := report.findings }) with
      | error e => rfl
      | ok first =>
        obtain ⟨k, left, r', -, haccepted, hstops⟩ := fixPasses_inv hfirst
        have hchecked := hstops.checked (haccepted.checked hstart)
        have hsecond := fix_of_checked hchosen hchecked n
        rw [← first.encode_text (hvalid first hfirst), Int.toNat_natCast] at hsecond
        simp only [bind, Except.bind]
        rw [hsecond]
        rfl

theorem decode_readOnce :
  Utf8.decode Analysis.readOnce.1 = .ok "const a = 1; f(a);"
  := by
  have hany : (Utf8.decode Analysis.readOnce.1).toOption.any (· = "const a = 1; f(a);") := by
    decide +kernel
  obtain ⟨text, htext, hany⟩ := exists_ok_of_any hany
  rw [htext, of_decide_eq_true hany]

/-- A run of one pass and another one after it make the two passes of a single run. -/
theorem fix_add_chained :
  ∃ first second, (twoPasses false).fix chained.1 none none (1 : Nat) = .ok first
    ∧ first.text = "const a = 1; f(a);"
    ∧ (twoPasses false).fix (Utf8.encode first.text) none none (1 : Nat) = .ok second
    ∧ first.passes = 1 ∧ second.passes = 1 ∧ second.source = inlined.1
    ∧ (twoPasses false).fix chained.1 none none (1 + 1 : Nat) = .ok {
      source := second.source
      findings := second.findings
      applied := first.applied + second.applied
      passes := first.passes + second.passes
      reverted := first.reverted || second.reverted }
  := by
  have hchosen := choose_twoPasses false
  obtain ⟨report, hreport⟩ := exists_turns_chained false
  obtain ⟨report', hreport'⟩ := exists_turns_readOnce false
  obtain ⟨report'', hreport'', hintact, -⟩ := exists_report_inlined false
  have hunbroken : ¬ (twoPasses false).Broken none none chained.1 := by
    simp [broken_iff hchosen hreport.report_eq, hreport.intact]
  obtain ⟨first, hfirst, hsource, hpasses⟩ : ∃ first,
      (twoPasses false).fix chained.1 none none (1 : Nat) = .ok first
        ∧ first.source = Analysis.readOnce.1 ∧ first.passes = 1 := by
    rw [fix_eq hchosen hreport.report_eq, Int.toNat_natCast, hreport.intact,
      hreport.fixPasses_succ hreport'.report_eq, hreport'.intact, if_neg (by decide), fixPasses]
    exact ⟨_, rfl, rfl, rfl⟩
  obtain ⟨second, hsecond, hsource', hpasses'⟩ : ∃ second,
      (twoPasses false).fix Analysis.readOnce.1 none none (1 : Nat) = .ok second
        ∧ second.source = inlined.1 ∧ second.passes = 1 := by
    rw [fix_eq hchosen hreport'.report_eq, Int.toNat_natCast, hreport'.intact,
      hreport'.fixPasses_succ hreport'', hintact, if_neg (by decide), fixPasses]
    exact ⟨_, rfl, rfl, rfl⟩
  have hvalid : ∃ text, Utf8.decode first.source = .ok text := hsource ▸ ⟨_, decode_readOnce⟩
  have hsecond' : (twoPasses false).fix (Utf8.encode first.text) none none (1 : Nat)
      = .ok second := by
    rw [first.encode_text hvalid, hsource, hsecond]
  have hadd := fix_add hunbroken 1 1 fun r hr => Except.ok.inj (hfirst.symm.trans hr) ▸ hvalid
  use first, second, hfirst
  refine ⟨?_, hsecond', hpasses, hpasses', hsource', ?_⟩
  · rw [FixResult.text, hsource, Utf8.decodeLossy_of_decode decode_readOnce]
  · rw [hadd, hfirst]
    simp only [bind, Except.bind]
    rw [hsecond']
    rfl

/-- If fixing stops before its budget is spent and leaves a text, fixing that text changes
nothing: no pass is made, the findings are the same, and a pass that was undone is undone again. -/
theorem fix_idempotent {maxPasses : Int} {result : FixResult}
    (h : rule.fix source path language maxPasses = .ok result)
    (hleft : result.passes < maxPasses)
    (hvalid : ∃ text, Utf8.decode result.source = .ok text) :
  rule.fix (Utf8.encode result.text) path language maxPasses = .ok {
    source := result.source
    findings := result.findings
    applied := 0
    passes := 0
    reverted := result.reverted }
  := by
  obtain ⟨chosen, report, hchosen, hreport, h⟩ := fix_inv h
  obtain ⟨k, left, r, hbudget, haccepted, hstops⟩ := fixPasses_inv h
  have hpasses : r.passes = k := by simpa using haccepted.passes_eq
  have hkept : r.reverted = false := haccepted.reverted_eq
  obtain ⟨report', hreport', hfindings, hintact⟩ := haccepted.checked ⟨report, hreport, rfl, id⟩
  rw [result.encode_text hvalid]
  cases hstops with
  | spent => omega
  | settled hfixes =>
    rw [fix_eq hchosen hreport', fixPasses_of_settled (by rw [hfindings]; exact hfixes), hfindings,
      hkept]
  | @undone left r report'' hfixes hrun hbroken hsound =>
    have hsound' : report'.hasError = false := by simpa [hsound] using hintact
    have hbroken' : (report''.hasError && !report'.hasError) = true := by simp [hbroken, hsound']
    obtain ⟨n, hn⟩ : ∃ n, maxPasses.toNat = n + 1 := ⟨k + left, hbudget⟩
    rw [fix_eq hchosen hreport', hn, hfindings]
    exact fixPasses_of_broken (r := r.restart) hfixes hrun hbroken' n

/-- The second pass breaks the source and is undone, and so it is when the text that is left is
fixed again. -/
theorem fix_idempotent_chained :
  ∃ result, (twoPasses true).fix chained.1 none none 10 = .ok result
    ∧ result.passes = 1 ∧ result.reverted ∧ result.text = "const a = 1; f(a);"
    ∧ (twoPasses true).fix (Utf8.encode result.text) none none 10 = .ok {
      source := result.source
      findings := result.findings
      applied := 0
      passes := 0
      reverted := result.reverted }
  := by
  have hchosen := choose_twoPasses true
  obtain ⟨report, hreport⟩ := exists_turns_chained true
  obtain ⟨report', hreport'⟩ := exists_turns_readOnce true
  obtain ⟨report'', hreport'', hbroken, -⟩ := exists_report_inlined true
  obtain ⟨result, hfix, hsource, hpasses, hreverted⟩ : ∃ result,
      (twoPasses true).fix chained.1 none none 10 = .ok result
        ∧ result.source = Analysis.readOnce.1 ∧ result.passes = 1 ∧ result.reverted := by
    rw [fix_eq hchosen hreport.report_eq, show (10 : Int).toNat = 8 + 1 + 1 from rfl,
      hreport.intact, hreport.fixPasses_succ hreport'.report_eq, hreport'.intact,
      if_neg (by decide), hreport'.fixPasses_succ hreport'', if_pos hbroken]
    exact ⟨_, rfl, rfl, rfl, rfl⟩
  have hvalid : ∃ text, Utf8.decode result.source = .ok text := hsource ▸ ⟨_, decode_readOnce⟩
  use result, hfix, hpasses, hreverted
  constructor
  · rw [FixResult.text, hsource, Utf8.decodeLossy_of_decode decode_readOnce]
  · exact fix_idempotent hfix (by rw [hpasses]; decide) hvalid

end Rule

end SingleUse
