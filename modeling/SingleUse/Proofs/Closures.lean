import SingleUse.Proofs.Reporting
import SingleUse.Proofs.Visiting

/-!
# Closures

A *closure* is a function or a class field: what is below it runs later than what is around it.  If
callbacks are exempt, a reported name is read in the function that declares it.  The function of a
place is its nearest ancestor that opens the scope of a function or of the program, and the first
arm of a conditional opens the scope of an arm even if it is a function.  So the only closures that
may stand between declaration and read are first arms.
-/

namespace SingleUse

namespace Cursor

/-- Whether what is below a node runs later: a function of any form, or a class field. -/
def isClosure (c : Cursor) : Bool := c.category = .function || c.category = .field

/-- Whether a node is the first arm of a conditional. -/
def isFirstArm (c : Cursor) : Bool :=
  c.parent.any fun parent =>
    parent.type == .ifStatement && (parent.childByField .consequence).any (·.sameNode c)

/-- The closures at or above a place, nearest first. -/
def closures (c : Cursor) : List Cursor := c.ancestors.filter isClosure

/-- A closure opens the scope of a function unless it is the first arm of a conditional. -/
theorem scopeKind_of_isClosure {c : Cursor} (h : c.isClosure) :
  c.scopeKind = if c.isFirstArm then some .branch else some .function
  := by
  unfold scopeKind
  change (if c.isFirstArm then _ else _) = _
  split
  · rfl
  · rcases Bool.or_eq_true_iff.mp h with hcategory | hcategory
    all_goals
      rw [of_decide_eq_true hcategory]

theorem opensScope_of_isClosure {c : Cursor} (h : c.isClosure) :
  c.opensScope
  := by
  rw [opensScope, scopeKind_of_isClosure h]
  split <;> rfl

theorem opensScope_of_hoists {c : Cursor} (h : c.hoists) :
  c.opensScope
  := by
  rw [opensScope]
  cases hkind : c.scopeKind with
  | none => simp [hoists, hkind] at h
  | some kind => rfl

/-- A closure that opens no scope of a function is a first arm. -/
theorem isFirstArm_of_isClosure {c : Cursor} (h : c.isClosure) (hhoists : c.hoists = false) :
  c.isFirstArm
  := by
  by_contra harm
  rw [hoists, scopeKind_of_isClosure h, if_neg harm] at hhoists
  simp [ScopeKind.hoists] at hhoists

/-- What comes after an ancestor among the ancestors lies above it. -/
theorem ancestors_of_eq_append {c up : Cursor} {left right : List Cursor}
    (h : c.ancestors = left ++ up :: right) :
  up.ancestors = up :: right
  := by
  induction left generalizing c with
  | nil =>
    obtain ⟨rfl, -⟩ := List.cons.inj h
    exact h
  | cons head left ih =>
    cases hparent : c.parent with
    | none =>
      rw [ancestors_of_parent_eq_none hparent] at h
      simp at h
    | some above =>
      rw [ancestors_of_parent hparent] at h
      exact ih (List.cons.inj h).2

theorem nodup_closures (c : Cursor) :
  c.closures.Nodup
  := c.nodup_ancestors.filter _

end Cursor

/-! ### Places within the scope of a declaration -/

namespace Tree.DistinctScopes

variable {tree : Tree} {typeContexts : List NodeType} {c d : Cursor}

/-- If a place `c` lies in the scope around `d`, the ancestors of the two are the same from the node
on that opens the scope. -/
theorem exists_ancestors_eq_append (h : tree.DistinctScopes) (hc : c ∈ (Cursor.root tree).visited)
    (hd : d ∈ (Cursor.root tree).visited)
    (hscope : ∀ k, (Surroundings.inside typeContexts d).scope = some k →
      k ∈ Cursor.scopeKeys c.ancestors) :
  ∃ between left outer, c.ancestors = between ++ outer ∧ d.ancestors = left ++ outer
    ∧ ∀ up ∈ left, up.opensScope = false
  := by
  rw [Surroundings.scope_inside] at hscope
  cases hfind : d.ancestors.find? Cursor.opensScope with
  | none =>
    use c.ancestors, d.ancestors, []
    simpa using hfind
  | some opener =>
    obtain ⟨hopens, left, right, hancestors, hleft⟩ := List.find?_eq_some_iff_append.mp hfind
    have hright := Cursor.ancestors_of_eq_append hancestors
    have hopener : opener ∈ (Cursor.root tree).visited := by
      apply Cursor.mem_visited_of_mem_ancestors hd
      simp [hancestors]
    obtain ⟨other, hother, hkey⟩ := List.mem_map.mp (hscope (.ofNode opener) (by rw [hfind]; rfl))
    obtain ⟨habove, hopensOther⟩ := List.mem_filter.mp hother
    obtain rfl : other = opener := h.eq_of_key_eq hopener hopens
      (Cursor.mem_visited_of_mem_ancestors hc habove) hopensOther hkey
    obtain ⟨between, hbetween⟩ := Cursor.ancestors_suffix habove
    use between, left, other.ancestors, hbetween.symm
    constructor
    · rw [hancestors, hright]
    · simpa using hleft

/-- If the two also lie in the same function, no function opens its scope between `c` and that
node. -/
theorem hoists_eq_false (h : tree.DistinctScopes) (hc : c ∈ (Cursor.root tree).visited)
    (hd : d ∈ (Cursor.root tree).visited) {between left outer : List Cursor}
    (hbetween : c.ancestors = between ++ outer) (hleft : d.ancestors = left ++ outer)
    (hopens : ∀ up ∈ left, up.opensScope = false)
    (hfunction : (Surroundings.inside typeContexts c).function
      = (Surroundings.inside typeContexts d).function) :
  ∀ up ∈ between, up.hoists = false
  := by
  have hnone : left.find? Cursor.hoists = none := by
    apply List.find?_eq_none.mpr
    intro up hup hhoists
    have hscope := Cursor.opensScope_of_hoists hhoists
    simp [hopens up hup] at hscope
  intro up hup
  by_contra hhoists
  obtain ⟨nearest, hnearest⟩ : ∃ nearest, between.find? Cursor.hoists = some nearest := by
    apply Option.isSome_iff_exists.mp
    apply List.find?_isSome.mpr
    use up, hup
    simpa using hhoists
  rw [Surroundings.function_inside, Surroundings.function_inside, hbetween, hleft,
    List.find?_append, List.find?_append, hnearest, hnone, Option.some_or, Option.none_or,
    Option.map_some] at hfunction
  obtain ⟨farther, hfarther, hkey⟩ := Option.map_eq_some_iff.mp hfunction.symm
  have hmem := List.mem_of_find?_eq_some hnearest
  have hmem' := List.mem_of_find?_eq_some hfarther
  obtain rfl : farther = nearest := by
    apply h.eq_of_key_eq _ (Cursor.opensScope_of_hoists (List.find?_some hnearest)) _
      (Cursor.opensScope_of_hoists (List.find?_some hfarther)) hkey
    · apply Cursor.mem_visited_of_mem_ancestors hc
      simp [hbetween, hmem]
    · apply Cursor.mem_visited_of_mem_ancestors hd
      simp [hleft, hmem']
  have hnodup := c.nodup_ancestors
  rw [hbetween] at hnodup
  exact List.disjoint_of_nodup_append hnodup hmem hmem'

/-- So the closures that `c` lies in are those of `d`, after some that are first arms of
conditionals. -/
theorem exists_closures_eq_append (h : tree.DistinctScopes) (hc : c ∈ (Cursor.root tree).visited)
    (hd : d ∈ (Cursor.root tree).visited)
    (hscope : ∀ k, (Surroundings.inside typeContexts d).scope = some k →
      k ∈ Cursor.scopeKeys c.ancestors)
    (hfunction : (Surroundings.inside typeContexts c).function
      = (Surroundings.inside typeContexts d).function) :
  ∃ between, c.closures = between ++ d.closures ∧ ∀ closure ∈ between, closure.isFirstArm
  := by
  obtain ⟨between, left, outer, hbetween, hleft, hopens⟩ :=
    h.exists_ancestors_eq_append hc hd hscope
  have hhoists := h.hoists_eq_false hc hd hbetween hleft hopens hfunction
  have hnone : left.filter Cursor.isClosure = [] := by
    apply List.filter_eq_nil_iff.mpr
    intro up hup hclosure
    have hscope := Cursor.opensScope_of_isClosure hclosure
    simp [hopens up hup] at hscope
  use between.filter Cursor.isClosure
  constructor
  · rw [Cursor.closures, Cursor.closures, hbetween, hleft, List.filter_append, List.filter_append,
      hnone, List.nil_append]
  · intro closure hmem
    obtain ⟨hup, hclosure⟩ := List.mem_filter.mp hmem
    exact Cursor.isFirstArm_of_isClosure hclosure (hhoists closure hup)

end Tree.DistinctScopes

/-! ### Declaration and read -/

namespace Analysis

variable {source : Bytes} {tree : Tree} {typeContexts : List NodeType} {options : RuleOptions}
  {a : Analysis}

/-- If callbacks are exempt, a reported name is read in the closures that declare it, and in further
ones only if these are first arms of conditionals. -/
theorem closures_of_reportable (h : ofTree source tree typeContexts options = .ok a)
    (hdistinct : tree.DistinctScopes) (hcallback : options.isOn .allowInsideCallback)
    {reported : List Binding} (hreported : a.registry.reportable options a.scopes = .ok reported)
    {b : Binding} (hb : b ∈ reported) :
  ∃ read declarator between, a.readsOf b.key = [read] ∧ b.declaration = some declarator
    ∧ read.node.closures = between ++ declarator.closures
    ∧ (∀ closure ∈ between, closure.isFirstArm)
    ∧ (read.node.closures = declarator.closures ↔
      ∀ closure ∈ read.node.closures, closure.isFirstArm → closure ∈ declarator.closures)
  := by
  obtain ⟨hmem, huse, occurrence, hlast, hpasses⟩ :=
    Registry.passes_of_mem_reportable hreported hb
  obtain ⟨declarator, hdeclarator, hplaces⟩ := places_inv h hmem
  obtain ⟨read, href, -, hreads, hread⟩ := exists_read_of_useCount h hmem huse
  obtain rfl : occurrence = read.toOccurrence := Option.some.inj (hlast.symm.trans hread)
  have hvisited := (occurrence_of_mem h href).1
  have hsurrounded := surrounded_of_mem h hdistinct href
  have hscope : ∀ k, (Surroundings.inside typeContexts declarator).scope = some k →
      k ∈ Cursor.scopeKeys read.node.ancestors := by
    intro k hk
    rw [← hsurrounded.chain]
    apply hpasses.mem_chain
    rw [hplaces.lexical, Visit.here_at, hk]
  have hfunction : (Surroundings.inside typeContexts read.node).function
      = (Surroundings.inside typeContexts declarator).function := by
    rw [Surroundings.function_inside, ← hsurrounded.function, hpasses.callback hcallback,
      hplaces.function, Visit.here_at]
  obtain ⟨between, hclosures, harms⟩ :=
    hdistinct.exists_closures_eq_append hvisited hdeclarator hscope hfunction
  refine ⟨read, declarator, between, hreads, hplaces.declaration, hclosures, harms, ?_⟩
  constructor
  · intro heq closure hclosure _
    rwa [← heq]
  · intro hshared
    have hnodup := read.node.nodup_closures
    rw [hclosures] at hnodup hshared ⊢
    have hnil : between = [] := by
      apply List.eq_nil_iff_forall_not_mem.mpr
      intro closure hclosure
      apply List.disjoint_of_nodup_append hnodup hclosure
      exact hshared closure (List.mem_append_left _ hclosure) (harms closure hclosure)
    rw [hnil, List.nil_append]

/-- The source `const a = g(); if (x) function f() \x7b h(a); \x7d`. -/
def conditional : Bytes × Tree where
  fst := Utf8.encode "const a = g(); if (x) function f() \x7b h(a); \x7d"
  snd :=
    .named .program 0 44 none
      [.named .lexicalDeclaration 0 14 none
        [.named .variableDeclarator 6 13 none
          [.named .identifier 6 7 (some .name) [],
          .named .callExpression 10 13 (some .value)
            [.named .identifier 10 11 (some .function) [],
            .named .arguments 11 13 (some .arguments) []]]],
      .named .ifStatement 15 44 none
        [.named .parenthesizedExpression 18 21 (some .condition)
          [.named .identifier 19 20 none []],
        .named .functionDeclaration 22 44 (some .consequence)
          [.named .identifier 31 32 (some .name) [],
          .named .formalParameters 32 34 (some .parameters) [],
          .named .statementBlock 35 44 (some .body)
            [.named .expressionStatement 37 42 none
              [.named .callExpression 37 41 none
                [.named .identifier 37 38 (some .function) [],
                .named .arguments 38 41 (some .arguments)
                  [.named .identifier 39 40 none []]]]]]]]

/-- The name is read in a function that is the first arm of a conditional, and is reported although
it is not declared there. -/
theorem closures_of_reportable_conditional :
  ∃ a reported b, ofTree conditional.1 conditional.2 [] {} = .ok a
    ∧ conditional.2.DistinctScopes ∧ ({} : RuleOptions).isOn .allowInsideCallback
    ∧ a.registry.reportable {} a.scopes = .ok reported ∧ b ∈ reported ∧ b.name = "a"
    ∧ ∃ read declarator between, a.readsOf b.key = [read] ∧ b.declaration = some declarator
      ∧ read.node.closures = between ++ declarator.closures
      ∧ (∀ closure ∈ between, closure.isFirstArm)
      ∧ (read.node.closures = declarator.closures ↔
        ∀ closure ∈ read.node.closures, closure.isFirstArm → closure ∈ declarator.closures)
      ∧ between.length = 1
  := by
  have hdistinct : conditional.2.DistinctScopes := by
    decide +kernel
  have hany : (ofTree conditional.1 conditional.2 [] {}).toOption.any fun a =>
      (a.registry.reportable {} a.scopes).toOption.any fun reported =>
        reported.any fun b => b.name = "a" ∧ ∀ read ∈ a.readsOf b.key,
          ∀ declarator ∈ b.declaration,
            read.node.closures.length = 1 + declarator.closures.length := by
    decide +kernel
  obtain ⟨a, ha, hany⟩ := exists_ok_of_any hany
  obtain ⟨reported, hreported, hany⟩ := exists_ok_of_any hany
  obtain ⟨b, hb, hread⟩ := List.any_eq_true.mp hany
  obtain ⟨hname, hlength⟩ := of_decide_eq_true hread
  obtain ⟨read, declarator, between, hreads, hdeclaration, hclosures, hrest⟩ :=
    closures_of_reportable ha hdistinct rfl hreported hb
  have hone := hlength read (by simp [hreads]) declarator hdeclaration
  rw [hclosures, List.length_append, Nat.add_right_cancel_iff] at hone
  exact ⟨a, reported, b, ha, hdistinct, rfl, hreported, hb, hname, read, declarator, between,
    hreads, hdeclaration, hclosures, hrest.1, hrest.2, hone⟩

end Analysis

end SingleUse
