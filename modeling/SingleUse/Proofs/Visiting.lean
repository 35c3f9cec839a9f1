import SingleUse.Proofs.Attribution
import SingleUse.Proofs.ScopeChain
import SingleUse.Proofs.WellFormed
import Mathlib.Algebra.Order.BigOperators.Group.List
import Mathlib.Algebra.Order.Group.Nat

/-!
# Visiting

Which places are visited, and what a visit says of its place.  A place is *reached* if it and the
places above it are named, the root apart, and none of those above shuts out what is below.  The
reached places are visited, each once, in pre-order; a *stack* of the places still to be visited
leads to the same visits.

The surroundings of a reference are told by the ancestors of its identifier.  The nearest one that
opens a scope is its scope, and if no two places open scopes with the same key, the chain of that
scope lists all of them.
-/

namespace SingleUse

namespace Cursor

/-! ### Ancestors and the order of places -/

theorem length_path_of_parent {c up : Cursor} (h : c.parent = some up) :
  c.path.length = up.path.length + 1
  := by
  obtain ⟨focus, path⟩ := c
  cases path with
  | nil => simp [parent] at h
  | cons crumb path =>
    obtain rfl := Option.some.inj h
    rfl

theorem length_path_le_of_mem_ancestors {c up : Cursor} (h : up ∈ c.ancestors) :
  up.path.length ≤ c.path.length
  := by
  induction h using induction_on_ancestors with
  | self => rfl
  | above up top _ hparent ih =>
    have hlength := length_path_of_parent hparent
    omega

/-- The ancestors of a place have ways of different lengths. -/
theorem eq_of_mem_ancestors {c a b : Cursor} (ha : a ∈ c.ancestors) (hb : b ∈ c.ancestors)
    (hlength : a.path.length = b.path.length) :
  a = b
  := by
  induction c using induction_on_parent with
  | top c hparent =>
    rw [ancestors_of_parent_eq_none hparent, List.mem_singleton] at ha hb
    rw [ha, hb]
  | below c above hparent ih =>
    have hlt := length_path_of_parent hparent
    rw [ancestors_of_parent hparent] at ha hb
    rcases List.mem_cons.mp ha with rfl | haAbove
    · rcases List.mem_cons.mp hb with rfl | hbAbove
      · rfl
      · have hle := length_path_le_of_mem_ancestors hbAbove
        omega
    · rcases List.mem_cons.mp hb with rfl | hbAbove
      · have hle := length_path_le_of_mem_ancestors haAbove
        omega
      · exact ih haAbove hbAbove

theorem nodup_ancestors (c : Cursor) :
  c.ancestors.Nodup
  := by
  induction c using induction_on_parent with
  | top c hparent => simp [ancestors_of_parent_eq_none hparent]
  | below c above hparent ih =>
    rw [ancestors_of_parent hparent]
    apply List.nodup_cons.mpr
    constructor
    · intro hmem
      have hle := length_path_le_of_mem_ancestors hmem
      have hlt := length_path_of_parent hparent
      omega
    · exact ih

/-- The places of a forest remember how many trees stand to their left. -/
theorem length_before_le {label : Label} {path : List Crumb} {before forest : List Tree}
    {c : Cursor} (h : c ∈ among label path before forest) :
  ∃ crumb, c.path = crumb :: path ∧ before.length ≤ crumb.before.length
  := by
  induction forest generalizing before with
  | nil => simp [among] at h
  | cons tree after ih =>
    rcases List.mem_cons.mp h with rfl | h
    · exact ⟨_, rfl, Nat.le_refl _⟩
    · obtain ⟨crumb, hpath, hle⟩ := ih h
      rw [List.length_cons] at hle
      exact ⟨crumb, hpath, by omega⟩

theorem nodup_among (label : Label) (path : List Crumb) (before forest : List Tree) :
  (among label path before forest).Nodup
  := by
  induction forest generalizing before with
  | nil => simp [among]
  | cons tree after ih =>
    apply List.nodup_cons.mpr
    constructor
    · intro hmem
      obtain ⟨crumb, hpath, hle⟩ := length_before_le hmem
      obtain ⟨rfl, -⟩ := List.cons.inj hpath
      exact Nat.not_succ_le_self _ hle
    · apply ih

/-- Each place comes once in pre-order. -/
theorem nodup_preorder (c : Cursor) :
  c.preorder.Nodup
  := by
  induction c using induction_on_children with
  | step c ih =>
    rw [preorder_eq]
    apply List.nodup_cons.mpr
    constructor
    · intro hmem
      obtain ⟨child, hchild, hc⟩ := List.mem_flatMap.mp hmem
      have hle := length_path_le_of_mem_ancestors (mem_preorder_iff.mp hc)
      have hlt := length_path_of_parent (parent_of_mem_children hchild)
      omega
    · apply List.nodup_flatMap.mpr
      use ih
      apply (nodup_among _ _ _ _ : c.children.Nodup).imp_of_mem
      intro a b ha hb hne place hplaceA hplaceB
      apply hne
      apply eq_of_mem_ancestors (mem_preorder_iff.mp hplaceA) (mem_preorder_iff.mp hplaceB)
      rw [length_path_of_parent (parent_of_mem_children ha),
        length_path_of_parent (parent_of_mem_children hb)]

/-! ### Reached places -/

/-- Whether nothing below a node is visited: an import, an identifier, or an export that names what
another module declares. -/
def Shuts (c : Cursor) : Prop :=
  c.category = .importStatement ∨ c.category = .identifier
    ∨ c.category = .exportStatement ∧ (c.childByField .source).isSome

instance (c : Cursor) : Decidable c.Shuts :=
  inferInstanceAs (Decidable (_ ∨ _))

theorem isOpen_iff {c : Cursor} :
  c.isOpen ↔ ¬ c.Shuts
  := by
  unfold isOpen Shuts
  split <;> simp_all

/-- Whether a place is the root or named, and so are the places above it, of which none shuts out
what is below. -/
def Reached (c : Cursor) : Prop :=
  (c.parent = none ∨ c.named)
    ∧ ∀ up ∈ c.ancestors.tail, (up.parent = none ∨ up.named) ∧ ¬ up.Shuts

instance (c : Cursor) : Decidable c.Reached :=
  inferInstanceAs (Decidable (_ ∧ ∀ up ∈ c.ancestors.tail, _))

theorem reached_of_parent_eq_none {c : Cursor} (h : c.parent = none) :
  c.Reached
  := by
  simp [Reached, h, ancestors_of_parent_eq_none h]

theorem reached_iff_of_parent {c up : Cursor} (h : c.parent = some up) :
  c.Reached ↔ up.Reached ∧ ¬ up.Shuts ∧ c.named
  := by
  have hup : up.ancestors = up :: up.ancestors.tail := rfl
  rw [Reached, Reached, ancestors_of_parent h, List.tail_cons, h, hup, List.forall_mem_cons,
    List.tail_cons]
  simp only [reduceCtorEq, false_or]
  tauto

/-- What lies above a reached place is reached. -/
theorem Reached.of_mem_ancestors {c up : Cursor} (h : c.Reached) (hup : up ∈ c.ancestors) :
  up.Reached
  := by
  induction hup using induction_on_ancestors with
  | self => exact h
  | above up top _ hparent ih => exact ((reached_iff_of_parent hparent).mp ih).1

/-- What is below the members of a list that pass a test. -/
theorem flatMap_filter {α β : Type} (p : α → Bool) (f : α → List β) (l : List α) :
  (l.filter p).flatMap f = l.flatMap fun x => if p x then f x else []
  := by
  induction l with
  | nil => rfl
  | cons x rest ih =>
    rw [List.filter_cons, List.flatMap_cons, ← ih]
    split <;> simp

/-- The places visited from a reached place are the reached ones at or below it. -/
theorem visited_eq_filter {c : Cursor} (h : c.Reached) :
  c.visited = c.preorder.filter (·.Reached)
  := by
  induction c using induction_on_children with
  | step c ih =>
    have hbelow : ∀ child ∈ c.children, child.preorder.filter (·.Reached)
        = if c.isOpen && child.named then child.visited else [] := by
      intro child hchild
      have hreached := reached_iff_of_parent (parent_of_mem_children hchild)
      split
      · rename_i hvisited
        obtain ⟨hopen, hnamed⟩ := Bool.and_eq_true_iff.mp hvisited
        rw [ih child hchild (hreached.mpr ⟨h, isOpen_iff.mp hopen, hnamed⟩)]
      · rename_i hskipped
        apply List.filter_eq_nil_iff.mpr
        intro place hplace hin
        have hchildReached :=
          (of_decide_eq_true hin).of_mem_ancestors (mem_preorder_iff.mp hplace)
        obtain ⟨-, hopen, hnamed⟩ := hreached.mp hchildReached
        exact hskipped (Bool.and_eq_true_iff.mpr ⟨isOpen_iff.mpr hopen, hnamed⟩)
    rw [visited_eq, preorder_eq, List.filter_cons, if_pos (decide_eq_true h),
      List.filter_flatMap, List.flatMap_congr hbelow, namedChildren, flatMap_filter]
    split <;> simp_all

/-- The visited places of a tree are the reached ones. -/
theorem mem_visited_root_iff {tree : Tree} {c : Cursor} :
  c ∈ (root tree).visited ↔ root tree ∈ c.ancestors ∧ c.Reached
  := by
  rw [visited_eq_filter (reached_of_parent_eq_none rfl), List.mem_filter, mem_preorder_iff,
    decide_eq_true_eq]

theorem nodup_visited_root (tree : Tree) :
  (root tree).visited.Nodup
  := by
  rw [visited_eq_filter (reached_of_parent_eq_none rfl)]
  exact (nodup_preorder _).filter _

theorem visited_root_sublist (tree : Tree) :
  (root tree).visited.Sublist (root tree).preorder
  := by
  rw [visited_eq_filter (reached_of_parent_eq_none rfl)]
  apply List.filter_sublist

/-- The root lies above everything that lies above a place of its tree. -/
theorem root_mem_ancestors_of_mem {tree : Tree} {c up : Cursor} (h : root tree ∈ c.ancestors)
    (hup : up ∈ c.ancestors) :
  root tree ∈ up.ancestors
  := by
  induction hup using induction_on_ancestors with
  | self => exact h
  | above up top _ hparent ih => exact root_mem_ancestors_of_parent ih hparent

/-- What lies above a visited place is visited. -/
theorem mem_visited_of_mem_ancestors {tree : Tree} {c up : Cursor} (h : c ∈ (root tree).visited)
    (hup : up ∈ c.ancestors) :
  up ∈ (root tree).visited
  := by
  obtain ⟨hroot, hreached⟩ := mem_visited_root_iff.mp h
  apply mem_visited_root_iff.mpr
  exact ⟨root_mem_ancestors_of_mem hroot hup, hreached.of_mem_ancestors hup⟩

/-- What is visited from a visited place is visited in one go. -/
theorem visited_infix {top c : Cursor} (h : c ∈ top.visited) :
  c.visited <:+: top.visited
  := by
  induction top using induction_on_namedChildren with
  | step top ih =>
    rw [visited_eq] at h
    rcases List.mem_cons.mp h with rfl | h
    · exact List.infix_rfl
    · split at h
      · rename_i hopen
        obtain ⟨child, hchild, hc⟩ := List.mem_flatMap.mp h
        rw [visited_eq top, if_pos hopen]
        apply (ih child hchild hc).trans
        apply List.IsInfix.trans _ (List.suffix_cons _ _).isInfix
        rw [List.flatMap_def]
        apply List.infix_of_mem_flatten (List.mem_map_of_mem hchild)
      · simp at h

/-- A place is visited before the places below it. -/
theorem visited_eq_append {tree : Tree} {c t : Cursor} (hc : c ∈ (root tree).visited)
    (ht : t ∈ (root tree).visited) (habove : c ∈ t.ancestors) (hne : t ≠ c) :
  ∃ before after, (root tree).visited = before ++ t :: after ∧ c ∈ before
  := by
  have hbelow : t ∈ c.visited := by
    rw [visited_eq_filter (mem_visited_root_iff.mp hc).2, List.mem_filter]
    use mem_preorder_iff.mpr habove
    exact decide_eq_true (mem_visited_root_iff.mp ht).2
  obtain ⟨left, right, hvisited⟩ := visited_infix hc
  obtain ⟨rest, hrest⟩ : ∃ rest, c.visited = c :: rest := ⟨_, c.visited_eq⟩
  rw [hrest] at hbelow hvisited
  obtain ⟨between, after, rfl⟩ := List.append_of_mem ((List.mem_cons.mp hbelow).resolve_left hne)
  use left ++ c :: between, after ++ right
  constructor
  · simp [← hvisited]
  · simp

end Cursor

/-! ### The stack of the traversal -/

/-- The places just below that are visited. -/
def Cursor.openChildren (c : Cursor) : List Cursor := if c.isOpen then c.namedChildren else []

theorem Tree.forestSize_eq (forest : List Tree) :
  forestSize forest = (forest.map size).sum
  := by
  induction forest with
  | nil => rfl
  | cons tree rest ih => rw [forestSize, List.map_cons, List.sum_cons, ih]

/-- A subtree has one node more than the subtrees just below have together. -/
theorem Cursor.sum_size_children (c : Cursor) :
  (c.children.map (·.focus.size)).sum + 1 = c.focus.size
  := by
  have hsum : (c.children.map (·.focus.size)).sum = Tree.forestSize c.focus.children := by
    rw [Tree.forestSize_eq, ← map_focus_among c.label c.path [] c.focus.children, List.map_map]
    rfl
  obtain ⟨⟨label, children⟩, path⟩ := c
  rw [hsum]
  rfl

/-- The subtrees just below are together smaller than the subtree in focus. -/
theorem Cursor.sum_size_openChildren_lt (c : Cursor) :
  (c.openChildren.map (·.focus.size)).sum < c.focus.size
  := by
  have hsublist : c.openChildren.Sublist c.children := by
    unfold openChildren
    split
    · apply List.filter_sublist
    · apply List.nil_sublist
  have hle : (c.openChildren.map (·.focus.size)).sum ≤ (c.children.map (·.focus.size)).sum :=
    (hsublist.map _).sum_le_sum fun _ _ => Nat.zero_le _
  have hsize := c.sum_size_children
  omega

/-- The visits that a stack of places leads to, each place with the surroundings that it is visited
from.  The uppermost place is visited, and the places below it that are visited are laid on the
stack, the first of them on top. -/
def Visit.drain (typeContexts : List NodeType) : List (Surroundings × Cursor) → List Visit
  | [] => []
  | (around, c) :: stack =>
    .ofNode typeContexts around c ::
      drain typeContexts
        (c.openChildren.map ((around.enter typeContexts c), ·) ++ stack)
termination_by stack => (stack.map fun entry => entry.2.focus.size).sum
decreasing_by
  have hlt := c.sum_size_openChildren_lt
  simp only [List.map_append, List.map_map, Function.comp_def, List.sum_append, List.map_cons,
    List.sum_cons]
  omega

/-- A stack leads to the visits of the subtrees at its places. -/
theorem Visit.drain_eq (typeContexts : List NodeType) (stack : List (Surroundings × Cursor)) :
  drain typeContexts stack
    = stack.flatMap fun entry => entry.2.focus.visits typeContexts entry.1 entry.2.path
  := by
  induction stack using drain.induct typeContexts with
  | case1 => simp [drain]
  | case2 around c stack ih =>
    rw [drain, ih, List.flatMap_append, List.flatMap_map, List.flatMap_cons, Tree.visits_focus,
      Cursor.openChildren]
    split <;> rfl

/-- A tree is traversed by a stack that holds its root at first. -/
theorem Tree.traverse_eq_drain (tree : Tree) (typeContexts : List NodeType) :
  tree.traverse typeContexts = Visit.drain typeContexts [({}, .root tree)]
  := by
  rw [Visit.drain_eq, List.flatMap_singleton]
  rfl

/-! ### Surroundings told by the ancestors -/

/-- Whether a place opens a scope of a function or of the program. -/
def Cursor.hoists (c : Cursor) : Bool := c.scopeKind.any (·.hoists)

/-- Whether identifiers at a place name types: it lies in a type and is no value asked for its
type. -/
def Cursor.InType (typeContexts : List NodeType) (c : Cursor) : Prop :=
  (∃ up ∈ c.ancestors, up.type ∈ typeContexts) ∧ ∀ up ∈ c.ancestors, up.type ≠ .typeQuery

instance (typeContexts : List NodeType) (c : Cursor) : Decidable (c.InType typeContexts) :=
  inferInstanceAs (Decidable ((∃ up ∈ c.ancestors, _) ∧ ∀ up ∈ c.ancestors, _))

namespace Surroundings

variable {typeContexts : List NodeType} {c : Cursor}

/-- The scope inside a place is that of its nearest ancestor that opens one. -/
theorem scope_inside :
  (inside typeContexts c).scope = (c.ancestors.find? Cursor.opensScope).map .ofNode
  := by
  rw [inside]
  induction c.ancestors with
  | nil => rfl
  | cons up rest ih =>
    rw [List.foldr_cons, enter, List.find?_cons, ih, Cursor.opensScope]
    cases up.scopeKind <;> rfl

/-- The function inside a place is its nearest ancestor that is a function or the program. -/
theorem function_inside :
  (inside typeContexts c).function = (c.ancestors.find? Cursor.hoists).map .ofNode
  := by
  rw [inside]
  induction c.ancestors with
  | nil => rfl
  | cons up rest ih =>
    rw [List.foldr_cons, enter, List.find?_cons, ih, Cursor.hoists]
    cases up.scopeKind.any (·.hoists) <;> rfl

/-- The loops inside a place are those among its ancestors, the outermost first. -/
theorem loops_inside :
  (inside typeContexts c).loops = c.ancestors.reverse.filterMap Cursor.loop?
  := by
  rw [inside]
  induction c.ancestors with
  | nil => rfl
  | cons up rest ih =>
    rw [List.foldr_cons, enter, ih, List.reverse_cons, List.filterMap_append]
    cases h : up.loop? <;> simp [h]

/-- Entering a node keeps the question for the type of a value, and asks it at a type query. -/
theorem typeMode_enter_eq_query_iff {around : Surroundings} :
  (around.enter typeContexts c).typeMode = .query
    ↔ c.type = .typeQuery ∨ around.typeMode = .query
  := by
  simp only [enter]
  split <;> simp_all
  split <;> simp_all

/-- Entering a node keeps values apart from types unless it is one of the contexts or a query. -/
theorem typeMode_enter_eq_value_iff {around : Surroundings} :
  (around.enter typeContexts c).typeMode = .value
    ↔ (c.type ≠ .typeQuery ∧ c.type ∉ typeContexts) ∧ around.typeMode = .value
  := by
  simp only [enter]
  split <;> simp_all
  split <;> simp_all

/-- A value is asked for its type inside a place exactly if a type query is among its
ancestors. -/
theorem typeMode_inside_eq_query_iff :
  (inside typeContexts c).typeMode = .query ↔ ∃ up ∈ c.ancestors, up.type = .typeQuery
  := by
  rw [inside]
  induction c.ancestors with
  | nil => simp
  | cons up rest ih =>
    rw [List.foldr_cons, typeMode_enter_eq_query_iff, ih, List.exists_mem_cons_iff]

/-- Names are those of values inside a place exactly if no context and no query is among its
ancestors. -/
theorem typeMode_inside_eq_value_iff :
  (inside typeContexts c).typeMode = .value
    ↔ ∀ up ∈ c.ancestors, up.type ≠ .typeQuery ∧ up.type ∉ typeContexts
  := by
  rw [inside]
  induction c.ancestors with
  | nil => simp
  | cons up rest ih =>
    rw [List.foldr_cons, typeMode_enter_eq_value_iff, ih, List.forall_mem_cons]

/-- Names are those of types inside a place exactly if it lies in a type and under no query. -/
theorem typeMode_inside_eq_type_iff :
  (inside typeContexts c).typeMode = .type ↔ c.InType typeContexts
  := by
  have hmode : ∀ mode : TypeMode, mode = .type ↔ mode ≠ .query ∧ mode ≠ .value := by
    intro mode
    cases mode <;> simp
  rw [hmode, Ne, Ne, typeMode_inside_eq_query_iff, typeMode_inside_eq_value_iff, Cursor.InType]
  push Not
  constructor
  · rintro ⟨hnone, up, hup, hcontext⟩
    exact ⟨⟨up, hup, hcontext (hnone up hup)⟩, hnone⟩
  · rintro ⟨⟨up, hup, hcontext⟩, hnone⟩
    exact ⟨hnone, up, hup, fun _ => hcontext⟩

end Surroundings

/-! ### Chains told by the ancestors -/

/-- Whether no two places of a tree open scopes with the same key. -/
def Tree.DistinctScopes (tree : Tree) : Prop :=
  (Cursor.scopeKeys (Cursor.root tree).preorder).Nodup

instance (tree : Tree) : Decidable tree.DistinctScopes :=
  inferInstanceAs (Decidable (List.Nodup _))

namespace Tree.DistinctScopes

variable {tree : Tree} {c other : Cursor}

/-- A visited place that opens a scope opens it alone. -/
theorem opensAlone (h : tree.DistinctScopes) (hc : c ∈ (Cursor.root tree).visited)
    (hopens : c.opensScope) :
  c.OpensAlone tree
  := by
  have hsublist : (Cursor.scopeKeys (Cursor.root tree).visited).Sublist
      (Cursor.scopeKeys (Cursor.root tree).preorder) :=
    ((Cursor.visited_root_sublist tree).filter _).map _
  apply List.count_eq_one_of_mem (h.sublist hsublist)
  apply List.mem_map_of_mem (List.mem_filter.mpr ⟨hc, hopens⟩)

/-- Visited places that open scopes with the same key are the same. -/
theorem eq_of_key_eq (h : tree.DistinctScopes) (hc : c ∈ (Cursor.root tree).visited)
    (hopens : c.opensScope) (hother : other ∈ (Cursor.root tree).visited)
    (hopensOther : other.opensScope) (hkey : ScopeKey.ofNode other = .ofNode c) :
  other = c
  := (h.opensAlone hc hopens).eq hc hopens hother hopensOther hkey

/-- The chain of the scope inside a visited place lists its ancestors that open a scope, the nearest
first. -/
theorem chain_inside (h : tree.DistinctScopes) (hc : c ∈ (Cursor.root tree).visited)
    (source : Bytes) (typeContexts : List NodeType) :
  (ScopeTree.ofVisits source (tree.traverse typeContexts)).chain
      (Surroundings.inside typeContexts c).scope
    = Cursor.scopeKeys c.ancestors
  := by
  induction c using Cursor.induction_on_parent with
  | top c hparent =>
    rw [ScopeTree.chain_inside_eq hc (h.opensAlone hc), Surroundings.around, hparent,
      Cursor.ancestors_of_parent_eq_none hparent]
    simp
  | below c up hparent ih =>
    have hup := Cursor.mem_ancestors_of_parent hparent
    rw [ScopeTree.chain_inside_eq hc (h.opensAlone hc), Surroundings.around_of_parent hparent,
      ih (Cursor.mem_visited_of_mem_ancestors hc hup), ← Cursor.scopeKeys_append,
      Cursor.ancestors_of_parent hparent]
    rfl

end Tree.DistinctScopes

/-! ### References -/

/-- What a reference says of its place, told by the ancestors of its identifier. -/
structure Reference.Surrounded (ref : Reference) (scopes : ScopeTree)
    (typeContexts : List NodeType) : Prop where
  /-- Its scope is that of the nearest ancestor that opens one. -/
  scope : ref.scope = (ref.node.ancestors.find? Cursor.opensScope).map .ofNode
  /-- The chain of its scope lists the ancestors that open a scope, the nearest first. -/
  chain : scopes.chain ref.scope = Cursor.scopeKeys ref.node.ancestors
  /-- Its function is the nearest ancestor that opens the scope of a function or the program. -/
  function : ref.function = (ref.node.ancestors.find? Cursor.hoists).map .ofNode
  /-- Its loops are those among the ancestors, the outermost first. -/
  loops : ref.loops = ref.node.ancestors.reverse.filterMap Cursor.loop?
  /-- It lies in broken code if an ancestor is broken. -/
  inError : ref.inError ↔ ∃ up ∈ ref.node.ancestors, up.category = .error
  /-- It lies in a type if an ancestor asks for the type of a value. -/
  inType : ref.inType ↔ ∃ up ∈ ref.node.ancestors, up.type = .typeQuery
  /-- Names of types are no references. -/
  valued : (∃ up ∈ ref.node.ancestors, up.type ∈ typeContexts) →
    ∃ up ∈ ref.node.ancestors, up.type = .typeQuery

/-- An identifier that has a reference is not the name of a type. -/
theorem Marks.typeMode_ne_of_reference? {marks : Marks} {source : Bytes} {visit : Visit}
    {ref : Reference} (h : marks.reference? source visit = some ref) :
  visit.here.typeMode ≠ .type
  := by
  obtain ⟨role, hrole, -⟩ := Option.map_eq_some_iff.mp h
  intro hmode
  simp [role?, hmode] at hrole

namespace Analysis

variable {source : Bytes} {tree : Tree} {typeContexts : List NodeType} {options : RuleOptions}
  {a : Analysis}

theorem surrounded_of_mem (h : ofTree source tree typeContexts options = .ok a)
    (hdistinct : tree.DistinctScopes) {ref : Reference} (href : ref ∈ a.references) :
  ref.Surrounded a.scopes typeContexts
  := by
  obtain ⟨hplace, -, hoccurrence⟩ := occurrence_of_mem h href
  obtain ⟨-, -, marks, made, hmade, -⟩ := exists_reference?_of_mem h href
  have hmode := Marks.typeMode_ne_of_reference? hmade
  have hscope := congrArg Occurrence.scope hoccurrence
  have hfunction := congrArg Occurrence.function hoccurrence
  have hloops := congrArg Occurrence.loops hoccurrence
  have hinError := congrArg Occurrence.inError hoccurrence
  have hinType := congrArg Occurrence.inType hoccurrence
  simp only [Visit.occurrence, Visit.here_at] at hmode hscope hfunction hloops hinError hinType
  constructor
  case scope => rw [hscope, Surroundings.scope_inside]
  case chain => rw [hscope, (ofTree_inv h).2.1, hdistinct.chain_inside hplace]
  case function => rw [hfunction, Surroundings.function_inside]
  case loops => rw [hloops, Surroundings.loops_inside]
  case inError => rw [hinError, Surroundings.inError_inside]
  case inType => rw [hinType, decide_eq_true_eq, Surroundings.typeMode_inside_eq_query_iff]
  case valued =>
    intro hcontext
    by_contra hquery
    push Not at hquery
    exact hmode (Surroundings.typeMode_inside_eq_type_iff.mpr ⟨hcontext, hquery⟩)

/-- The traversal by a stack visits the reached places, each once and in pre-order, and what a
reference says of its place is told by the ancestors of its identifier. -/
theorem references_surrounded (h : ofTree source tree typeContexts options = .ok a)
    (hdistinct : tree.DistinctScopes) :
  tree.traverse typeContexts = Visit.drain typeContexts [({}, .root tree)]
    ∧ (tree.traverse typeContexts).map (·.node) = (Cursor.root tree).preorder.filter (·.Reached)
    ∧ ((tree.traverse typeContexts).map (·.node)).Nodup
    ∧ ∀ ref ∈ a.references, ref.Surrounded a.scopes typeContexts
  := by
  have hnodes : (tree.traverse typeContexts).map (·.node) = (Cursor.root tree).visited := by
    rw [Tree.traverse_eq, List.map_map]
    apply List.map_id
  refine ⟨tree.traverse_eq_drain typeContexts, ?_, ?_, fun ref => surrounded_of_mem h hdistinct⟩
  · rw [hnodes, Cursor.visited_eq_filter (Cursor.reached_of_parent_eq_none rfl)]
  · rw [hnodes]
    apply Cursor.nodup_visited_root

/-- The source `import z from "m"; if (x) f(() => { for (;;) g(k); let d: typeof e; });`. -/
def nested : Bytes × Tree where
  fst := Utf8.encode
    "import z from \"m\"; if (x) f(() => \x7b for (;;) g(k); let d: typeof e; \x7d);"
  snd :=
    .named .program 0 71 none
      [.named .importStatement 0 18 none
        [.named .importClause 7 8 none [.named .identifier 7 8 none []],
        .named .string 14 17 (some .source) []],
      .named .ifStatement 19 71 none
        [.named .parenthesizedExpression 22 25 (some .condition)
          [.named .identifier 23 24 none []],
        .named .expressionStatement 26 71 (some .consequence)
          [.named .callExpression 26 70 none
            [.named .identifier 26 27 (some .function) [],
            .named .arguments 27 70 (some .arguments)
              [.named .arrowFunction 28 69 none
                [.named .formalParameters 28 30 (some .parameters) [],
                .named .statementBlock 34 69 (some .body)
                  [.named .forStatement 36 50 none
                    [.named .expressionStatement 45 50 (some .body)
                      [.named .callExpression 45 49 none
                        [.named .identifier 45 46 (some .function) [],
                        .named .arguments 46 49 (some .arguments)
                          [.named .identifier 47 48 none []]]]],
                  .named .lexicalDeclaration 51 67 none
                    [.named .variableDeclarator 55 66 none
                      [.named .identifier 55 56 (some .name) [],
                      .named .annotationOfType 56 66 (some (.other "type"))
                        [.named .typeQuery 58 66 none [.named .identifier 65 66 none []]]]]]]]]]]]

/-- The name `k` stands in a block of a function in the first arm of a conditional, and in a loop;
the name `e` stands in a type, where it is asked for its type. -/
theorem references_surrounded_nested :
  ∃ a, ofTree nested.1 nested.2 [.annotationOfType] {} = .ok a ∧ nested.2.DistinctScopes
    ∧ (a.references.map fun ref => (ref.name, (a.scopes.chain ref.scope).length, ref.inType))
      = [("x", 1, false), ("f", 2, false), ("g", 5, false), ("k", 5, false), ("d", 4, false),
        ("e", 4, true)]
    ∧ nested.2.traverse [.annotationOfType]
      = Visit.drain [.annotationOfType] [({}, .root nested.2)]
    ∧ (nested.2.traverse [.annotationOfType]).map (·.node)
      = (Cursor.root nested.2).preorder.filter (·.Reached)
    ∧ ((nested.2.traverse [.annotationOfType]).map (·.node)).Nodup
    ∧ ∀ ref ∈ a.references, ref.Surrounded a.scopes [.annotationOfType]
  := by
  have hdistinct : nested.2.DistinctScopes := by
    decide +kernel
  have hany : (ofTree nested.1 nested.2 [.annotationOfType] {}).toOption.any fun a =>
      (a.references.map fun ref => (ref.name, (a.scopes.chain ref.scope).length, ref.inType))
        = [("x", 1, false), ("f", 2, false), ("g", 5, false), ("k", 5, false), ("d", 4, false),
          ("e", 4, true)] := by
    decide +kernel
  obtain ⟨a, ha, hnames⟩ := exists_ok_of_any hany
  use a, ha, hdistinct, of_decide_eq_true hnames
  apply references_surrounded ha hdistinct

end Analysis

end SingleUse
