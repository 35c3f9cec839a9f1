import SingleUse.Eligibility
import SingleUse.Proofs.Attribution

/-!
# Reporting

What is known of a reported binding.  The marks and counters that the exclusions look at were
set in the course of two passes; by the laws of registration and attribution they tell of all
declarations and of all references of the tree, and so does the absence of an exclusion.
-/

namespace SingleUse

/-! ### Passing the exclusions -/

/-- What a binding with a single read is like if no exclusion applies to it. -/
structure Binding.Passes (b : Binding) (read : Occurrence) (options : RuleOptions)
    (scopes : ScopeTree) : Prop where
  ignored : options.ignores b.name = false
  rejection : b.rejection = none
  callback : options.isOn .allowInsideCallback → read.function = b.function
  loop : b.inForLoop read = false
  await : b.isAwaited = false
  exported : b.exported → options.isOn .ignoreExportedVariables = false
  objectDestructuring : b.shape = .objectProperty → options.isOn .ignoreObjectDestructuring = false
  reassigned : b.reassigned = false
  redeclared : b.redeclared = false
  malformed : b.malformed = false
  fallbackRead : b.fallbackReads = 0
  readBeforeDeclaration : b.isReadEarly read = false
  outsideDeclaringBlock : b.isReadOutside read scopes = false
  whileLoop : b.inOwnWhileLoop read = false

/-- A reason that does not apply leaves the decision to the ones after it. -/
theorem ite_some_eq_none {α : Type} {p : Prop} [Decidable p] {reason : α} {rest : Option α} :
  (if p then some reason else rest) = none ↔ ¬ p ∧ rest = none
  := by
  split <;> simp_all

theorem Binding.passes_of_exclusion?_eq_none {b : Binding} {read : Occurrence}
    {options : RuleOptions} {scopes : ScopeTree}
    (h : b.exclusion? read options scopes = none) :
  b.Passes read options scopes
  := by
  unfold exclusion? at h
  obtain ⟨hignored, h⟩ := ite_some_eq_none.mp h
  have hrejection : b.rejection = none := by
    cases hrejection : b.rejection with
    | none => rfl
    | some exclusion => simp [hrejection] at h
  rw [hrejection] at h
  simp only [Option.isSome_none, Bool.false_eq_true, if_false, ite_some_eq_none] at h
  obtain ⟨hcallback, hloop, hawait, hexported, hobject, hreassigned, hredeclared, hmalformed,
    hfallback, hearly, houtside, hwhile, -⟩ := h
  constructor <;> simp_all

/-- The scope of the declaration lies around the read. -/
theorem Binding.Passes.mem_chain {b : Binding} {read : Occurrence} {options : RuleOptions}
    {scopes : ScopeTree} (h : b.Passes read options scopes) {k : ScopeKey}
    (hk : b.lexical = some k) :
  k ∈ scopes.chain read.scope
  := by
  have houtside := h.outsideDeclaringBlock
  rw [isReadOutside, hk] at houtside
  simpa [ScopeTree.isAncestor] using houtside

/-- Sifting by a test that may fail keeps exactly what passes the test. -/
theorem filterM_eq {α : Type} {test : α → Except Error Bool} {l sifted : List α}
    (h : l.filterM test = .ok sifted) :
  sifted = l.filter fun x => (test x).toOption = some true
  := by
  have haux : ∀ {kept sifted : List α}, l.filterAuxM test kept = .ok sifted →
      sifted.reverse = kept.reverse ++ l.filter fun x => (test x).toOption = some true := by
    clear h
    induction l with
    | nil =>
      intro kept sifted h
      cases h
      simp
    | cons x rest ih =>
      intro kept sifted h
      obtain ⟨answer, htest, h⟩ := exists_ok_of_bind h
      rw [ih h]
      cases answer <;> simp [htest, Except.toOption]
  obtain ⟨sifted, hsifted, h⟩ := exists_ok_of_bind h
  cases h
  simpa using haux hsifted

/-- A binding that can be checked is read once, and the answer is about its single read. -/
theorem Binding.check_inv {b : Binding} {options : RuleOptions} {scopes : ScopeTree}
    {exclusion : Option Exclusion} (h : b.check options scopes = .ok exclusion) :
  b.useCount = 1 ∧ ∃ read, b.lastRead = some read ∧ b.exclusion? read options scopes = exclusion
  := by
  unfold check at h
  split at h
  · rename_i read hread
    split at h
    · rename_i huse
      exact ⟨huse, read, hread, Except.ok.inj h⟩
    · cases h
  · cases h

/-- The bindings that are reported are those that no exclusion applies to. -/
theorem Registry.reportable_inv {r : Registry} {options : RuleOptions} {scopes : ScopeTree}
    {reported : List Binding} (h : r.reportable options scopes = .ok reported) :
  reported = r.bindings.filter fun b => b.check options scopes = .ok none
  := by
  rw [filterM_eq h, singleUse, List.filter_filter]
  apply List.filter_congr
  intro b _
  cases hcheck : b.check options scopes with
  | error e => simp [Except.map, Except.toOption]
  | ok exclusion => simp [Except.map, Except.toOption, (Binding.check_inv hcheck).1]

/-- A reported binding is registered, and no exclusion applies to its single read. -/
theorem Registry.passes_of_mem_reportable {r : Registry} {options : RuleOptions}
    {scopes : ScopeTree} {reported : List Binding} (h : r.reportable options scopes = .ok reported)
    {b : Binding} (hb : b ∈ reported) :
  b ∈ r.bindings ∧ b.useCount = 1 ∧ ∃ read, b.lastRead = some read ∧ b.Passes read options scopes
  := by
  rw [reportable_inv h] at hb
  obtain ⟨hmem, hcheck⟩ := List.mem_filter.mp hb
  obtain ⟨huse, read, hread, hnone⟩ := Binding.check_inv (of_decide_eq_true hcheck)
  exact ⟨hmem, huse, read, hread, Binding.passes_of_exclusion?_eq_none hnone⟩

/-! ### Soundness -/

/-- What a report of a binding promises, where `read` is the read that is reported. -/
structure Analysis.Reported (a : Analysis) (tree : Tree) (typeContexts : List NodeType)
    (options : RuleOptions) (b : Binding) (read : Reference) : Prop where
  /-- The name is that of a variable. -/
  origin : b.origin = .declarator
  /-- It is declared once. -/
  declaredOnce : ((tree.declared a.source typeContexts).filter (·.key = b.key)).length = 1
  /-- It is used once, by the read. -/
  readOnce : a.readsOf b.key = [read] ∧ b.lastRead = some read.toOccurrence
  /-- The read was resolved along the chain of its scopes. -/
  resolved : read.fallback = false ∧ ∃ k ∈ a.scopes.chain read.scope, b.scope = some k
  /-- The read is no write. -/
  unwritten : read.role ≠ .assignmentTarget
  /-- The declaration is a declarator of the tree, outside of broken code, and ends before the
  read. -/
  declaration : ∃ declarator, b.declaration = some declarator ∧ declarator.category = .declarator
    ∧ .root tree ∈ declarator.ancestors
    ∧ (∀ up ∈ declarator.ancestors, up.category ≠ .error)
    ∧ declarator.stop ≤ read.node.start
  /-- The read stands in the tree, outside of broken code. -/
  intact : .root tree ∈ read.node.ancestors ∧ ∀ up ∈ read.node.ancestors, up.category ≠ .error
  /-- The scope of the declaration lies around the read. -/
  inScope : ∀ k, b.lexical = some k → k ∈ a.scopes.chain read.scope
  /-- Neither runs in a `for` loop. -/
  noForLoop : ∀ loop ∈ b.loops ++ read.loops, loop.kind ≠ .counted
  /-- The declaration runs in every other loop that the read runs in. -/
  sameLoops : ∀ loop ∈ read.loops, loop.kind = .conditional → loop ∈ b.loops
  /-- The name is not ignored. -/
  notIgnored : options.ignores b.name = false
  /-- Both stand in the same function, if callbacks are exempt. -/
  sameFunction : options.isOn .allowInsideCallback → read.function = b.function

namespace Analysis

variable {source : Bytes} {tree : Tree} {typeContexts : List NodeType} {options : RuleOptions}
  {a : Analysis}

/-- Only variables pass their screening. -/
theorem origin_of_screen {first : Binding} (h : first.screen options source = .ok none) :
  first.origin = .declarator
  := by
  by_contra horigin
  rw [Binding.screen, if_pos horigin] at h
  cases h

/-- A place lies outside of broken code exactly if neither it nor a place above it is broken. -/
theorem inError_inside_eq_false_iff {c : Cursor} :
  (Surroundings.inside typeContexts c).inError = false ↔
    ∀ up ∈ c.ancestors, up.category ≠ .error
  := by
  rw [← Bool.not_eq_true, Surroundings.inError_inside]
  simp

/-- The declaration of a binding that is a variable, is not rejected and not marked. -/
theorem declaration_of_passes (h : ofTree source tree typeContexts options = .ok a) {b : Binding}
    (hb : b ∈ a.registry.bindings) (hrejection : b.rejection = none)
    (hredeclared : b.redeclared = false) (hmalformed : b.malformed = false) :
  b.origin = .declarator
    ∧ ((tree.declared source typeContexts).filter (·.key = b.key)).length = 1
    ∧ ∃ place ∈ (Cursor.root tree).visited,
      (Visit.at typeContexts place).Places source b
        ∧ (Surroundings.inside typeContexts place).inError = false
  := by
  obtain ⟨first, again, rejection, hfilter, hscreen, hbinding, place, hplace, hdeclares⟩ :=
    binding_inv h hb
  have hplaces : (Visit.at typeContexts place).Places source b := by
    rw [hbinding]
    apply hdeclares.toPlaces.tally
  obtain rfl : rejection = none := by
    rw [hbinding] at hrejection
    simpa [Binding.screened] using hrejection
  obtain rfl : again = [] := by
    rw [hbinding] at hredeclared
    simpa [Binding.screened, hdeclares.once] using hredeclared
  have hfirst : first.malformed = false := by
    rw [hbinding] at hmalformed
    simp only [Binding.malformed_tally, Binding.malformed_redeclareAll,
      Bool.or_eq_false_iff] at hmalformed
    exact hmalformed.1.1
  refine ⟨?_, by rw [hfilter]; rfl, place, hplace, hplaces, ?_⟩
  · rw [hbinding]
    simpa [Binding.screened] using origin_of_screen hscreen
  · obtain ⟨target, -, htarget⟩ := hdeclares.malformed
    rw [hfirst, Visit.here_at] at htarget
    exact (Bool.or_eq_false_iff.mp htarget.symm).1

/-- A binding that is used once has a single read, the last one. -/
theorem exists_read_of_useCount (h : ofTree source tree typeContexts options = .ok a) {b : Binding}
    (hb : b ∈ a.registry.bindings) (huse : b.useCount = 1) :
  ∃ read ∈ a.references, read.uses b.key ∧ a.readsOf b.key = [read]
    ∧ b.lastRead = some read.toOccurrence
  := by
  have htallied := tallied_of_mem h hb
  obtain ⟨read, hreads⟩ : ∃ read, a.readsOf b.key = [read] :=
    List.length_eq_one_iff.mp (htallied.useCount ▸ huse)
  have hmem : read ∈ a.readsOf b.key := by simp [hreads]
  obtain ⟨href, huses⟩ := List.mem_filter.mp hmem
  use read, href, huses, hreads
  rw [htallied.lastRead, hreads]
  rfl

/-- A reported binding is declared once, is read once, and nothing stands between the two. -/
theorem reportable_sound (h : ofTree source tree typeContexts options = .ok a)
    {reported : List Binding} (hreported : a.registry.reportable options a.scopes = .ok reported)
    {b : Binding} (hb : b ∈ reported) :
  ∃ read, a.Reported tree typeContexts options b read
  := by
  obtain ⟨hmem, huse, occurrence, hlast, hpasses⟩ :=
    Registry.passes_of_mem_reportable hreported hb
  obtain ⟨horigin, honce, declarator, hdeclarator, hplaces, hintact⟩ :=
    declaration_of_passes h hmem hpasses.rejection hpasses.redeclared hpasses.malformed
  obtain ⟨read, href, huses, hreads, hread⟩ := exists_read_of_useCount h hmem huse
  obtain rfl : occurrence = read.toOccurrence := Option.some.inj (hlast.symm.trans hread)
  have htallied := tallied_of_mem h hmem
  rw [hreads] at htallied
  have hfallback : read.fallback = false := by
    have hnone := htallied.fallbackReads
    rw [hpasses.fallbackRead] at hnone
    simpa using hnone
  have hinError : read.inError = false := by
    by_contra hbroken
    have hmalformed := htallied.malformed.mpr (.inr ⟨read, by simp, by simpa using hbroken⟩)
    simp [hpasses.malformed] at hmalformed
  obtain ⟨hplace, -, hoccurrence⟩ := occurrence_of_mem h href
  have hresolve := resolve_of_uses h href huses
  rw [hfallback] at hresolve
  use read
  exact {
    origin := horigin
    declaredOnce := by rwa [(ofTree_inv h).1]
    readOnce := ⟨hreads, hlast⟩
    resolved := by
      obtain ⟨k, hk, hkey⟩ := Registry.mem_chain_of_resolve hresolve
      exact ⟨hfallback, k, hk, congrArg BindingKey.scope hkey⟩
    unwritten := by
      intro hrole
      have hreassigned := htallied.reassigned.mpr ⟨read, by simp, hrole⟩
      simp [hpasses.reassigned] at hreassigned
    declaration := by
      use declarator, hplaces.declaration, (hplaces.initializer horigin).1
      use Cursor.mem_ancestors_of_mem_visited hdeclarator, inError_inside_eq_false_iff.mp hintact
      have hearly := hpasses.readBeforeDeclaration
      rw [Binding.isReadEarly, hplaces.declaration] at hearly
      exact Nat.le_of_not_lt (of_decide_eq_false hearly)
    intact := by
      use Cursor.mem_ancestors_of_mem_visited hplace
      have hinside : (Surroundings.inside typeContexts read.node).inError = false := by
        rw [← Visit.here_at, ← hinError]
        exact (congrArg Occurrence.inError hoccurrence).symm
      exact inError_inside_eq_false_iff.mp hinside
    inScope := fun _ => hpasses.mem_chain
    noForLoop := by
      intro loop hloop hkind
      have hnone := hpasses.loop
      rw [Binding.inForLoop, List.any_eq_false] at hnone
      exact hnone loop hloop (by simpa using hkind)
    sameLoops := by
      have hwhile := hpasses.whileLoop
      rw [Binding.inOwnWhileLoop] at hwhile
      simpa using hwhile
    notIgnored := hpasses.ignored
    sameFunction := hpasses.callback }

/-- The source `const a = 1; f(a);`. -/
def readOnce : Bytes × Tree where
  fst := Utf8.encode "const a = 1; f(a);"
  snd :=
    .named .program 0 18 none
      [.named .lexicalDeclaration 0 12 none
        [.named .variableDeclarator 6 11 none
          [.named .identifier 6 7 (some .name) [], .named .number 10 11 (some .value) []]],
      .named .expressionStatement 13 18 none
        [.named .callExpression 13 17 none
          [.named .identifier 13 14 (some .function) [],
          .named .arguments 14 17 (some .arguments) [.named .identifier 15 16 none []]]]]

/-- The variable that is read once is reported, so what is promised of it holds. -/
theorem reportable_sound_readOnce :
  ∃ a reported b, ofTree readOnce.1 readOnce.2 [] {} = .ok a
    ∧ a.registry.reportable {} a.scopes = .ok reported ∧ b ∈ reported ∧ b.name = "a"
    ∧ ∃ read, a.Reported readOnce.2 [] {} b read
  := by
  have hany : (ofTree readOnce.1 readOnce.2 [] {}).toOption.any fun a =>
      (a.registry.reportable {} a.scopes).toOption.any fun reported =>
        reported.any fun b => b.name = "a" := by
    decide +kernel
  obtain ⟨a, ha, hany⟩ := exists_ok_of_any hany
  obtain ⟨reported, hreported, hany⟩ := exists_ok_of_any hany
  obtain ⟨b, hb, hname⟩ := List.any_eq_true.mp hany
  use a, reported, b, ha, hreported, hb, of_decide_eq_true hname
  apply reportable_sound ha hreported hb

end Analysis

end SingleUse
