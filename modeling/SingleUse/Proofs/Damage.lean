import SingleUse.Proofs.Reporting
import SingleUse.Proofs.WellFormed

/-!
# Damage

A node that is broken, or that the parser made up, does damage to the bindings in it.  A binding is
marked as malformed, and so not reported, if damage is done to its declaration or to one of its
reads.  Damage comes from above: from the nodes around a declarator or a read, and from the two
themselves.  Of what lies below a declarator only the declared name is looked at, and only whether
it was made up.  The pattern around the name, the type and the initializer may be broken.
-/

namespace SingleUse

/-- Whether no exclusion applies to a binding, leaving aside whether it is malformed. -/
def Binding.PassesOtherwise (b : Binding) (options : RuleOptions) (scopes : ScopeTree) : Prop :=
  { b with malformed := false }.check options scopes = .ok none

/-- No exclusion applies to a binding if none of the others does and it is not malformed. -/
theorem Binding.check_eq_ok_none_iff {b : Binding} {options : RuleOptions} {scopes : ScopeTree} :
  b.check options scopes = .ok none ↔
    b.PassesOtherwise options scopes ∧ b.malformed = false
  := by
  have hsame : b.malformed = false → { b with malformed := false } = b := by
    intro hsound
    rw [← hsound]
  constructor
  · intro hcheck
    obtain ⟨-, read, -, hnone⟩ := check_inv hcheck
    have hsound := (passes_of_exclusion?_eq_none hnone).malformed
    rw [PassesOtherwise, hsame hsound]
    exact ⟨hcheck, hsound⟩
  · rintro ⟨hcheck, hsound⟩
    rwa [PassesOtherwise, hsame hsound] at hcheck

/-- What passes the other exclusions is declared once. -/
theorem Binding.PassesOtherwise.redeclared {b : Binding} {options : RuleOptions}
    {scopes : ScopeTree} (h : b.PassesOtherwise options scopes) :
  b.redeclared = false
  := by
  obtain ⟨-, read, -, hnone⟩ := check_inv h
  exact (passes_of_exclusion?_eq_none hnone).redeclared

namespace Analysis

variable {source : Bytes} {tree : Tree} {typeContexts : List NodeType} {options : RuleOptions}
  {a : Analysis}

/-- Whether no damage is done to a binding. -/
structure Unharmed (a : Analysis) (b : Binding) : Prop where
  /-- Neither the node that declares it nor one around it is broken. -/
  declaration : ∀ declarator, b.declaration = some declarator →
    ∀ up ∈ declarator.ancestors, up.category ≠ .error
  /-- The name was not made up. -/
  name : ∀ target, b.target = some target → target.missing = false
  /-- No read is broken, nor is a node around one. -/
  reads : ∀ read ∈ a.readsOf b.key, ∀ up ∈ read.node.ancestors, up.category ≠ .error

/-- A binding that is declared once is malformed if damage is done to it. -/
theorem malformed_eq_false_iff (h : ofTree source tree typeContexts options = .ok a) {b : Binding}
    (hb : b ∈ a.registry.bindings) (honce : b.redeclared = false) :
  b.malformed = false ↔ a.Unharmed b
  := by
  obtain ⟨first, again, rejection, -, -, hbinding, place, -, hdeclares⟩ := binding_inv h hb
  obtain ⟨target, htarget, hmalformed⟩ := hdeclares.malformed
  obtain rfl : again = [] := by
    rw [hbinding] at honce
    simpa [Binding.screened, hdeclares.once] using honce
  have hdeclaration : b.declaration = some place := by
    rw [hbinding]
    exact (hdeclares.toPlaces.tally rejection [] _).declaration
  have hname : b.target = some target := by
    rw [hbinding, Binding.tally_eq]
    exact htarget
  have hreads : ∀ read ∈ a.readsOf b.key,
      read.inError = (Surroundings.inside typeContexts read.node).inError := by
    intro read hread
    obtain ⟨-, -, hoccurrence⟩ := occurrence_of_mem h (List.mem_filter.mp hread).1
    rw [← Visit.here_at]
    exact congrArg Occurrence.inError hoccurrence
  have hmarks : b.malformed = false ↔
      ((Surroundings.inside typeContexts place).inError = false ∧ target.missing = false)
        ∧ ∀ read ∈ a.readsOf b.key, read.inError = false := by
    rw [congrArg Binding.malformed hbinding]
    simp [Binding.screened, hmalformed, Visit.here_at]
  rw [hmarks, inError_inside_eq_false_iff]
  constructor
  · rintro ⟨⟨habove, hmade⟩, hsound⟩
    constructor
    · intro declarator hdeclarator
      obtain rfl := Option.some.inj (hdeclaration.symm.trans hdeclarator)
      exact habove
    · intro name hname'
      obtain rfl := Option.some.inj (hname.symm.trans hname')
      exact hmade
    · intro read hread
      rw [← @inError_inside_eq_false_iff typeContexts, ← hreads read hread]
      exact hsound read hread
  · intro hunharmed
    refine ⟨⟨hunharmed.declaration place hdeclaration, hunharmed.name target hname⟩, ?_⟩
    intro read hread
    rw [hreads read hread, inError_inside_eq_false_iff]
    apply hunharmed.reads read hread

/-- A binding is reported if no exclusion applies to it otherwise and no damage is done to it.  What
is broken below its declarator has no part in this. -/
theorem mem_reportable_iff (h : ofTree source tree typeContexts options = .ok a)
    {reported : List Binding} (hreported : a.registry.reportable options a.scopes = .ok reported)
    {b : Binding} (hb : b ∈ a.registry.bindings) :
  b ∈ reported ↔ b.PassesOtherwise options a.scopes ∧ a.Unharmed b
  := by
  rw [Registry.reportable_inv hreported, List.mem_filter, decide_eq_true_eq,
    Binding.check_eq_ok_none_iff]
  constructor
  · rintro ⟨-, hpasses, hsound⟩
    exact ⟨hpasses, (malformed_eq_false_iff h hb hpasses.redeclared).mp hsound⟩
  · rintro ⟨hpasses, hunharmed⟩
    exact ⟨hb, hpasses, (malformed_eq_false_iff h hb hpasses.redeclared).mpr hunharmed⟩

/-- The source `let a: = 1; f(a);`, where the type is missing. -/
def untyped : Bytes × Tree where
  fst := Utf8.encode "let a: = 1; f(a);"
  snd :=
    .named .program 0 17 none
      [.named .lexicalDeclaration 0 11 none
        [.named .variableDeclarator 4 10 none
          [.named .identifier 4 5 (some .name) [], .named .error 5 6 none [],
          .named .number 9 10 (some .value) []]],
      .named .expressionStatement 12 17 none
        [.named .callExpression 12 16 none
          [.named .identifier 12 13 (some .function) [],
          .named .arguments 13 16 (some .arguments) [.named .identifier 14 15 none []]]]]

/-- The variable is reported although there is a broken node below its declarator; no damage is done
to the variable by that. -/
theorem mem_reportable_iff_untyped :
  ∃ a reported b declarator broken, ofTree untyped.1 untyped.2 [] {} = .ok a
    ∧ a.registry.reportable {} a.scopes = .ok reported ∧ b ∈ reported
    ∧ b.declaration = some declarator ∧ broken ∈ declarator.preorder ∧ broken.category = .error
    ∧ a.Unharmed b
  := by
  have hany : (ofTree untyped.1 untyped.2 [] {}).toOption.any fun a =>
      (a.registry.reportable {} a.scopes).toOption.any fun reported =>
        reported.any fun b =>
          b.declaration.any fun declarator =>
            declarator.preorder.any fun broken => broken.category = .error := by
    decide +kernel
  obtain ⟨a, ha, hany⟩ := exists_ok_of_any hany
  obtain ⟨reported, hreported, hany⟩ := exists_ok_of_any hany
  obtain ⟨b, hb, hany⟩ := List.any_eq_true.mp hany
  obtain ⟨declarator, hdeclarator, hany⟩ := (Option.any_eq_true _ _).mp hany
  obtain ⟨broken, hbroken, hcategory⟩ := List.any_eq_true.mp hany
  use a, reported, b, declarator, broken, ha, hreported, hb, hdeclarator, hbroken
  use of_decide_eq_true hcategory
  have hmem := (Registry.passes_of_mem_reportable hreported hb).1
  exact ((mem_reportable_iff ha hreported hmem).mp hb).2

end Analysis

end SingleUse
