import SingleUse.Proofs.Ordering
import SingleUse.Proofs.Totality

/-!
# Guards

Inlining has guards of its own against what no report should contain.  Some of them the exclusions
*forestall*: a reported binding has a read, it is a variable, its declaration does not stand in the
header of a `for` loop, its read is no write, and the property that an object pattern takes has a
key.  That the header is noticed before rests on the tree: a loop is told by its category, and what
is missing or is a token has none, whatever its type is.
-/

namespace SingleUse

/-- The refusals that an exclusion, or the screening of a declaration, comes before. -/
inductive Refusal.Forestalled : Refusal → Prop where
  | noRead : Forestalled .noRead
  | notVariable (origin : String) : Forestalled (.notVariable origin)
  | loopHeader : Forestalled .loopHeader
  | written : Forestalled .written
  | noKey : Forestalled .noKey

/-- Whether all nodes of a tree with nodes below them are named and not missing. -/
def Tree.InnerNamed (tree : Tree) : Prop :=
  ∀ c ∈ (Cursor.root tree).preorder, c.children ≠ [] → c.named ∧ c.missing = false

instance (tree : Tree) : Decidable tree.InnerNamed :=
  inferInstanceAs (Decidable (∀ c ∈ (Cursor.root tree).preorder, c.children ≠ [] → _))

/-! ### Keys of patterns -/

/-- The single name of an object pattern has a key. -/
theorem Cursor.isSome_key_of_single {c : Cursor} {pattern : SinglePattern}
    (h : c.single = some pattern) (htype : c.type ≠ .arrayPattern) :
  pattern.key.isSome
  := by
  unfold single at h
  split at h
  · rw [if_neg htype] at h
    split at h
    · cases h
      rfl
    · split at h
      · split at h
        · cases h
          rfl
        · cases h
      · cases h
    · cases h
  · cases h

namespace Visit

variable {visit : Visit} {source : Bytes} {scopes : ScopeTree} {b : Binding}

/-- A candidate that an object pattern declares has the key of its property. -/
theorem isSome_patternKey_of_mem_declaratorBindings
    (hb : b ∈ visit.declaratorBindings source scopes) (hcandidate : b.isCandidate)
    (hshape : b.shape = .objectProperty) :
  b.patternKey.isSome
  := by
  unfold declaratorBindings at hb
  split at hb
  · simp at hb
  · dsimp only at hb
    split at hb
    case h_1 =>
      obtain rfl := List.mem_singleton.mp hb
      cases hshape
    case h_2 =>
      split at hb
      · obtain rfl := List.mem_singleton.mp hb
        cases hshape
      · obtain ⟨target, -, rfl⟩ := List.mem_map.mp hb
        cases hshape
    case h_3 htype =>
      split at hb
      · rename_i pattern hpattern
        obtain rfl := List.mem_singleton.mp hb
        apply Cursor.isSome_key_of_single hpattern
        simp [htype]
      · obtain ⟨target, -, rfl⟩ := List.mem_map.mp hb
        simp [Binding.isCandidate] at hcandidate
    case h_4 => simp at hb

theorem isSome_patternKey_of_mem_bindings (hb : b ∈ visit.bindings source scopes)
    (hcandidate : b.isCandidate) (hshape : b.shape = .objectProperty) :
  b.patternKey.isSome
  := by
  have horigin : b.origin = .declarator := by
    simpa using (Bool.and_eq_true_iff.mp hcandidate).1
  have hcategory := ((declares_of_mem_bindings hb).initializer horigin).1
  simp only [bindings, hcategory] at hb
  apply isSome_patternKey_of_mem_declaratorBindings hb hcandidate hshape

end Visit

/-! ### Answers of the guards -/

/-- A computation whose second step always has a result fails where the first step does. -/
theorem error_of_bind {ε α β : Type} {x : Except ε α} {f : α → Except ε β} {e : ε}
    (h : x >>= f = .error e) (hf : ∀ given, ∃ result, f given = .ok result) :
  x = .error e
  := by
  cases x with
  | error e' => exact congrArg _ (Except.error.inj h)
  | ok given =>
    obtain ⟨result, hresult⟩ := hf given
    cases hresult.symm.trans h

namespace Binding

variable {b : Binding} {read : Occurrence} {source : Bytes} {refusal : Refusal}

/-- Of a variable whose read is no write, and which is not declared in the header of a loop, no
refusal at the start is forestalled. -/
theorem not_forestalled_of_refusal? (horigin : b.origin = .declarator)
    (hcontainer : ∀ c, b.statement.bind (·.parent) = some c →
      c.type ≠ .forStatement ∧ c.type ≠ .forInStatement)
    (hrole : read.role ≠ .assignmentTarget) (h : b.refusal? read = some refusal) :
  ¬ refusal.Forestalled
  := by
  have hheader : (b.statement.bind (·.parent)).any
      (fun c => c.type = .forStatement || c.type = .forInStatement) = false := by
    cases hcase : b.statement.bind (·.parent) with
    | none => rfl
    | some c => simpa using hcontainer c hcase
  rintro ⟨⟩
  all_goals simp [refusal?, ite_eq_iff, horigin, hheader, hrole] at h

/-- An access is refused for want of a key only to what an object pattern declares. -/
theorem patternKey_of_patternAccess {initializer : Cursor} (hshape : b.shape ≠ .simple)
    (h : b.patternAccess source initializer = .error refusal) (hforestalled : refusal.Forestalled) :
  b.shape = .objectProperty ∧ b.patternKey = none
  := by
  unfold patternAccess at h
  simp only at h
  split at h
  · cases h
  · rename_i harray
    split at h
    · rename_i hnone
      use ?_, hnone
      cases hcase : b.shape with
      | simple => contradiction
      | arrayElement => contradiction
      | objectProperty => rfl
    · -- whatever the type of the key, the answer is an access or an unsupported key
      split at h
      all_goals cases h
      cases hforestalled

/-- Of the refusals of a substitution only the one for want of a key is forestalled. -/
theorem patternKey_of_substitution (h : b.substitution read source = .error refusal)
    (hforestalled : refusal.Forestalled) :
  b.shape = .objectProperty ∧ b.patternKey = none
  := by
  have hreplacement := error_of_bind h fun _ => ⟨_, rfl⟩
  unfold replacement at hreplacement
  split at hreplacement
  case h_1 => cases hreplacement
  case h_2 => cases hreplacement
  case h_3 =>
    have haccess := error_of_bind hreplacement fun _ => ⟨_, rfl⟩
    exact patternKey_of_patternAccess ‹_› haccess hforestalled
  case h_4 =>
    cases hreplacement
    cases hforestalled

/-- What has all that inlining takes is refused at the start, at the substitution, or because the
read stands in what is removed. -/
theorem Inlines.error_inv {declarator name : Cursor} (h : b.Inlines source read declarator name)
    (hrefused : b.inline source = .error refusal) :
  b.refusal? read = some refusal ∨ b.substitution read source = .error refusal
    ∨ refusal = .insideDeclaration
  := by
  cases hcase : b.refusal? read with
  | some first =>
    rw [h.refused first hcase] at hrefused
    cases hrefused
    exact .inl rfl
  | none =>
    obtain ⟨statement, removal, -, -, -, hinline⟩ := h.removed hcase
    rw [hinline] at hrefused
    cases hsubstitution : b.substitution read source with
    | error e =>
      rw [hsubstitution] at hrefused
      cases hrefused
      exact .inr (.inl rfl)
    | ok substitution =>
      rw [hsubstitution] at hrefused
      simp only [bind, Except.bind] at hrefused
      split at hrefused
      · cases hrefused
        exact .inr (.inr rfl)
      · cases hrefused

end Binding

/-! ### Inlining what is reported -/

namespace Analysis

variable {source : Bytes} {tree : Tree} {typeContexts : List NodeType} {options : RuleOptions}
  {a : Analysis}

/-- A binding that is not rejected has a key if an object pattern declares it. -/
theorem isSome_patternKey_of_mem (h : ofTree source tree typeContexts options = .ok a)
    {b : Binding} (hb : b ∈ a.registry.bindings) (hrejection : b.rejection = none)
    (hshape : b.shape = .objectProperty) :
  b.patternKey.isSome
  := by
  obtain ⟨first, again, rejection, hfilter, hscreen, hbinding, -⟩ := binding_inv h hb
  obtain ⟨visit, -, hfirst⟩ :=
    Tree.mem_declared.mp (List.mem_filter.mp (hfilter ▸ List.mem_cons_self)).1
  rw [Binding.redeclareAll_eq, Binding.tally_eq] at hbinding
  obtain rfl : rejection = none := by
    rw [hbinding] at hrejection
    exact hrejection
  rw [hbinding] at hshape ⊢
  apply Visit.isSome_patternKey_of_mem_bindings hfirst (Binding.isCandidate_of_screen hscreen)
  exact hshape

/-- A declarator in the header of a `for` loop is known to run in the loop, if all nodes with nodes
below them are named and not missing. -/
theorem exists_counted_of_container (htree : tree.InnerNamed)
    {declarator statement container : Cursor} (hroot : .root tree ∈ declarator.ancestors)
    (hstatement : declarator.parent = some statement)
    (hcontainer : statement.parent = some container)
    (htype : container.type = .forStatement ∨ container.type = .forInStatement) :
  ∃ loop ∈ (Surroundings.inside typeContexts declarator).loops, loop.kind = .counted
  := by
  have hup : container ∈ declarator.ancestors :=
    Cursor.mem_ancestors_trans (Cursor.mem_ancestors_of_parent hstatement)
      (Cursor.mem_ancestors_of_parent hcontainer)
  have hin := Cursor.mem_preorder_iff.mpr (Cursor.root_mem_ancestors_of_mem hroot hup)
  obtain ⟨hnamed, hmissing⟩ := htree container hin
    (List.ne_nil_of_mem (Cursor.mem_children_of_parent hcontainer))
  have hcategory : container.category = .loop := by
    rw [Cursor.named] at hnamed
    rw [Cursor.missing] at hmissing
    rw [Cursor.type] at htype
    rw [Cursor.category, Category.ofLabel, if_neg (by simp [hmissing]), if_pos hnamed]
    rcases htype with htype | htype <;> rw [htype] <;> rfl
  use ⟨container.start, container.stop, .counted⟩
  constructor
  · rw [Surroundings.loops_inside]
    apply List.mem_filterMap.mpr
    use container, List.mem_reverse.mpr hup
    simp [Cursor.loop?, hcategory]
  · rfl

/-- The read of a reported binding is no write. -/
theorem role_ne_of_passes (h : ofTree source tree typeContexts options = .ok a) {b : Binding}
    (hb : b ∈ a.registry.bindings) {read : Occurrence} (hread : b.lastRead = some read)
    (hreassigned : b.reassigned = false) :
  read.role ≠ .assignmentTarget
  := by
  intro hwrites
  have htallied := tallied_of_mem h hb
  obtain ⟨ref, href, rfl⟩ := Option.map_eq_some_iff.mp (htallied.lastRead.symm.trans hread)
  have hmarked := htallied.reassigned.mpr ⟨ref, List.mem_of_getLast? href, hwrites⟩
  simp [hreassigned] at hmarked

/-- The declaration of a binding that runs in no `for` loop does not stand in the header of one. -/
theorem type_of_container (htree : tree.InnerNamed)
    (h : ofTree source tree typeContexts options = .ok a) {b : Binding}
    (hb : b ∈ a.registry.bindings) (hloops : ∀ loop ∈ b.loops, loop.kind ≠ .counted) {c : Cursor}
    (hc : b.statement.bind (·.parent) = some c) :
  c.type ≠ .forStatement ∧ c.type ≠ .forInStatement
  := by
  obtain ⟨statement, hstatement, hparent⟩ := Option.bind_eq_some_iff.mp hc
  obtain ⟨declarator, hdeclaration, hup, -, hroot⟩ := statement_inv h hb hstatement
  obtain ⟨place, -, hplaces⟩ := places_inv h hb
  obtain rfl : declarator = place := Option.some.inj (hdeclaration.symm.trans hplaces.declaration)
  by_contra hheader
  have hin : ∃ loop ∈ (Surroundings.inside typeContexts declarator).loops, loop.kind = .counted :=
    exists_counted_of_container htree hroot hup hparent (by tauto)
  obtain ⟨loop, hloop, hcounted⟩ := hin
  apply hloops loop _ hcounted
  rw [hplaces.loops, Visit.here_at]
  exact hloop

/-- Of the reasons for which a reported binding is not inlined none is forestalled. -/
theorem not_forestalled_of_reportable (htree : tree.InnerNamed)
    (h : ofTree source tree typeContexts options = .ok a) {reported : List Binding}
    (hreported : a.registry.reportable options a.scopes = .ok reported) {b : Binding}
    (hb : b ∈ reported) {refusal : Refusal} (hrefused : b.inline source = .error refusal) :
  ¬ refusal.Forestalled
  := by
  obtain ⟨hmem, -, read, hread, hpasses⟩ := Registry.passes_of_mem_reportable hreported hb
  obtain ⟨read', declarator, name, hinlines⟩ := inlines_of_reportable h hreported hb
  obtain rfl : read' = read := Option.some.inj (hinlines.once.2.symm.trans hread)
  rcases hinlines.error_inv hrefused with hstart | hsubstitution | rfl
  · apply Binding.not_forestalled_of_refusal? _ _ _ hstart
    · exact (declaration_of_passes h hmem hpasses.rejection hpasses.redeclared
        hpasses.malformed).1
    · intro c
      apply type_of_container htree h hmem
      have hloop := hpasses.loop
      rw [Binding.inForLoop, List.any_append, Bool.or_eq_false_iff] at hloop
      simpa using hloop.1
    · apply role_ne_of_passes h hmem hread hpasses.reassigned
  · intro hforestalled
    obtain ⟨hshape, hnone⟩ := Binding.patternKey_of_substitution hsubstitution hforestalled
    have hsome := isSome_patternKey_of_mem h hmem hpasses.rejection hshape
    simp [hnone] at hsome
  · rintro ⟨⟩

/-- The source `const \x7b k: a \x7d = g(); delete a;`. -/
def deletedProperty : Bytes × Tree where
  fst := Utf8.encode "const \x7b k: a \x7d = g(); delete a;"
  snd :=
    .named .program 0 31 none
      [.named .lexicalDeclaration 0 21 none
        [.named .variableDeclarator 6 20 none
          [.named .objectPattern 6 14 (some .name)
            [.named .pairPattern 8 12 none
              [.named .propertyIdentifier 8 9 (some .key) [],
              .named .identifier 11 12 (some .value) []]],
          .named .callExpression 17 20 (some .value)
            [.named .identifier 17 18 (some .function) [],
            .named .arguments 18 20 (some .arguments) []]]],
      .named .expressionStatement 22 31 none
        [.named .unaryExpression 22 30 none
          [.node ⟨.delete, 22, 28, false, false, some .operator⟩ [],
          .named .identifier 29 30 (some .argument) []]]]

/-- The property that is deleted is reported and not inlined, for a reason that is not
forestalled. -/
theorem not_forestalled_of_reportable_deletedProperty :
  ∃ a reported b refusal, deletedProperty.2.InnerNamed
    ∧ ofTree deletedProperty.1 deletedProperty.2 [] {} = .ok a
    ∧ a.registry.reportable {} a.scopes = .ok reported ∧ b ∈ reported
    ∧ b.inline deletedProperty.1 = .error refusal ∧ refusal = .deleted
    ∧ ¬ refusal.Forestalled
  := by
  have hinner : deletedProperty.2.InnerNamed := by decide +kernel
  have hany : (ofTree deletedProperty.1 deletedProperty.2 [] {}).toOption.any fun a =>
      (a.registry.reportable {} a.scopes).toOption.any fun reported =>
        reported.any fun b => b.inline deletedProperty.1 matches .error .deleted := by
    decide +kernel
  obtain ⟨a, ha, hany⟩ := exists_ok_of_any hany
  obtain ⟨reported, hreported, hany⟩ := exists_ok_of_any hany
  obtain ⟨b, hb, hdeleted⟩ := List.any_eq_true.mp hany
  have hrefused : b.inline deletedProperty.1 = .error .deleted := by
    split at hdeleted
    · assumption
    · cases hdeleted
  use a, reported, b, .deleted, hinner, ha, hreported, hb, hrefused, rfl
  apply not_forestalled_of_reportable hinner ha hreported hb hrefused

end Analysis

end SingleUse
