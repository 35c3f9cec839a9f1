import SingleUse.Inline
import SingleUse.Proofs.Surroundings

/-!
# Well-formed trees

In a *well-formed* tree every node covers bytes of the source within those of its parent,
siblings follow each other, and names and declarators are not empty.  A place of a tree is told
by its ancestors: it lies in the tree if the root is one of them.
-/

namespace SingleUse

namespace Cursor

/-! ### Places of a tree -/

theorem preorder_eq (c : Cursor) :
  c.preorder = c :: c.children.flatMap preorder
  := by
  rw [preorder]
  simp [List.flatMap_subtype]

theorem self_mem_preorder (c : Cursor) :
  c ∈ c.preorder
  := by
  rw [preorder_eq]
  apply List.mem_cons_self

theorem mem_preorder_of_mem_children {top c child : Cursor} (h : c ∈ top.preorder)
    (hchild : child ∈ c.children) :
  child ∈ top.preorder
  := by
  induction top using induction_on_children with
  | step top ih =>
    rw [preorder_eq] at h ⊢
    apply List.mem_cons_of_mem
    rcases List.mem_cons.mp h with rfl | h
    · exact List.mem_flatMap.mpr ⟨child, hchild, child.self_mem_preorder⟩
    · obtain ⟨next, hnext, hc⟩ := List.mem_flatMap.mp h
      exact List.mem_flatMap.mpr ⟨next, hnext, ih next hnext hc⟩

/-- Every tree of a forest has its place. -/
theorem mem_among (label : Label) (path : List Crumb) (before forest after : List Tree)
    (tree : Tree) :
  ⟨tree, ⟨label, forest.reverse ++ before, after⟩ :: path⟩
    ∈ among label path before (forest ++ tree :: after)
  := by
  induction forest generalizing before with
  | nil => simp [among]
  | cons head rest ih =>
    rw [List.cons_append, among]
    apply List.mem_cons_of_mem
    simpa using ih (head :: before)

theorem map_focus_among (label : Label) (path : List Crumb) (before forest : List Tree) :
  (among label path before forest).map (·.focus) = forest
  := by
  induction forest generalizing before with
  | nil => rfl
  | cons tree after ih => rw [among, List.map_cons, ih]

/-- The trees to both sides of a place are those of the places to both sides. -/
theorem path_of_among_eq {label : Label} {path : List Crumb} {forest : List Tree} {c : Cursor}
    {left right : List Cursor} :
  ∀ {before : List Tree}, among label path before forest = left ++ c :: right →
    c.path = ⟨label, (left.map (·.focus)).reverse ++ before, right.map (·.focus)⟩ :: path
  := by
  induction left generalizing forest with
  | nil =>
    intro before h
    cases forest with
    | nil => simp [among] at h
    | cons tree after =>
      obtain ⟨rfl, rfl⟩ := List.cons.inj h
      simp [map_focus_among]
  | cons head rest ih =>
    intro before h
    cases forest with
    | nil => simp [among] at h
    | cons tree after =>
      obtain ⟨rfl, hrest⟩ := List.cons.inj h
      simpa using ih hrest

/-- A place is one of those just below the place above. -/
theorem mem_children_of_parent {c up : Cursor} (h : c.parent = some up) :
  c ∈ up.children
  := by
  obtain ⟨focus, path⟩ := c
  cases path with
  | nil => simp [parent] at h
  | cons crumb path =>
    obtain rfl := Option.some.inj h
    have hmem := mem_among crumb.label path [] crumb.before.reverse crumb.after focus
    rw [List.reverse_reverse, List.append_nil] at hmem
    exact hmem

theorem mem_children_of_mem_significantChildren {c child : Cursor}
    (h : child ∈ c.significantChildren) :
  child ∈ c.children
  := (List.mem_filter.mp (List.mem_filter.mp h).1).1

theorem mem_children_of_childByField {c child : Cursor} {field : Field}
    (h : c.childByField field = some child) :
  child ∈ c.children
  := (List.mem_filter.mp (List.mem_of_mem_head? h)).1

theorem parent_of_childByField {c up : Cursor} {field : Field}
    (h : up.childByField field = some c) :
  c.parent = some up ∧ c.label.field = some field
  := by
  use parent_of_mem_children (mem_children_of_childByField h)
  simpa using (List.mem_filter.mp (List.mem_of_mem_head? h)).2

theorem mem_children_of_wrapped {c inner : Cursor} (h : c.wrapped = some inner) :
  inner ∈ c.children
  := by
  apply mem_children_of_mem_significantChildren
  unfold wrapped at h
  split at h
  · split at h
    · exact List.mem_of_getLast? h
    · exact List.mem_of_mem_head? h
  · simp at h

/-- The place itself and all below it are the places that have it among their ancestors. -/
theorem mem_preorder_iff {top c : Cursor} :
  c ∈ top.preorder ↔ top ∈ c.ancestors
  := by
  constructor
  · intro h
    induction top using induction_on_children with
    | step top ih =>
      rw [preorder_eq] at h
      rcases List.mem_cons.mp h with rfl | h
      · apply self_mem_ancestors
      · obtain ⟨child, hchild, hc⟩ := List.mem_flatMap.mp h
        exact mem_ancestors_of_mem_children hchild (ih child hchild hc)
  · intro h
    induction c using induction_on_parent with
    | top c hparent =>
      rw [ancestors_of_parent_eq_none hparent, List.mem_singleton] at h
      rw [h]
      exact c.self_mem_preorder
    | below c up hparent ih =>
      rw [ancestors_of_parent hparent] at h
      rcases List.mem_cons.mp h with rfl | h
      · exact top.self_mem_preorder
      · apply mem_preorder_of_mem_children (ih h) (mem_children_of_parent hparent)

/-- What is above a place below the root of a tree lies in the tree. -/
theorem root_mem_ancestors_of_parent {tree : Tree} {c up : Cursor}
    (h : root tree ∈ c.ancestors) (hparent : c.parent = some up) :
  root tree ∈ up.ancestors
  := by
  rw [ancestors_of_parent hparent] at h
  rcases List.mem_cons.mp h with rfl | h
  · simp [root, parent] at hparent
  · exact h

theorem root_mem_ancestors_of_mem_children {tree : Tree} {c child : Cursor}
    (h : root tree ∈ c.ancestors) (hchild : child ∈ c.children) :
  root tree ∈ child.ancestors
  := by
  apply mem_ancestors_trans _ h
  apply mem_ancestors_of_parent (parent_of_mem_children hchild)

/-- The siblings to the left of a place, nearest first. -/
theorem preceding_of_children_eq {c up : Cursor} {left right : List Cursor}
    (h : up.children = left ++ c :: right) :
  c.preceding = left.reverse.map (·.label)
  := by
  rw [preceding, path_of_among_eq h]
  simp [Function.comp_def, label]

/-- The siblings to the right of a place, nearest first. -/
theorem following_of_children_eq {c up : Cursor} {left right : List Cursor}
    (h : up.children = left ++ c :: right) :
  c.following = right.map (·.label)
  := by
  rw [following, path_of_among_eq h]
  simp [Function.comp_def, label]

end Cursor

/-! ### Well-formedness -/

/-- Whether a tree is well formed for a source. -/
structure Tree.WellFormed (tree : Tree) (source : Bytes) : Prop where
  /-- The bytes of the tree are bytes of the source. -/
  inside : tree.label.stop ≤ source.length
  /-- No node is reversed. -/
  proper : ∀ c ∈ (Cursor.root tree).preorder, c.start ≤ c.stop
  /-- The bytes of a node are bytes of its parent. -/
  nested : ∀ c ∈ (Cursor.root tree).preorder, ∀ child ∈ c.children,
    c.start ≤ child.start ∧ child.stop ≤ c.stop
  /-- Siblings follow each other. -/
  ordered : ∀ c ∈ (Cursor.root tree).preorder, c.children.Pairwise fun a b => a.stop ≤ b.start
  /-- Names and declarators are not empty. -/
  nonempty : ∀ c ∈ (Cursor.root tree).preorder,
    c.category = .identifier ∨ c.category = .declarator → c.start < c.stop

instance (tree : Tree) (source : Bytes) : Decidable (tree.WellFormed source) :=
  decidable_of_iff (tree.label.stop ≤ source.length
      ∧ (∀ c ∈ (Cursor.root tree).preorder, c.start ≤ c.stop)
      ∧ (∀ c ∈ (Cursor.root tree).preorder, ∀ child ∈ c.children,
        c.start ≤ child.start ∧ child.stop ≤ c.stop)
      ∧ (∀ c ∈ (Cursor.root tree).preorder, c.children.Pairwise fun a b => a.stop ≤ b.start)
      ∧ ∀ c ∈ (Cursor.root tree).preorder,
        c.category = .identifier ∨ c.category = .declarator → c.start < c.stop)
    ⟨fun ⟨hinside, hproper, hnested, hordered, hnonempty⟩ =>
      ⟨hinside, hproper, hnested, hordered, hnonempty⟩,
    fun h => ⟨h.inside, h.proper, h.nested, h.ordered, h.nonempty⟩⟩

namespace Tree.WellFormed

variable {tree : Tree} {source : Bytes}

/-- The bytes of a node are bytes of the source. -/
theorem stop_le_length (h : tree.WellFormed source) {c : Cursor}
    (hc : Cursor.root tree ∈ c.ancestors) :
  c.start ≤ c.stop ∧ c.stop ≤ source.length
  := by
  use h.proper c (Cursor.mem_preorder_iff.mpr hc)
  induction c using Cursor.induction_on_parent with
  | top c hparent =>
    rw [Cursor.ancestors_of_parent_eq_none hparent, List.mem_singleton] at hc
    rw [← hc]
    exact h.inside
  | below c up hparent ih =>
    have hup := Cursor.root_mem_ancestors_of_parent hc hparent
    have hnested := h.nested up (Cursor.mem_preorder_iff.mpr hup) c
      (Cursor.mem_children_of_parent hparent)
    exact Nat.le_trans hnested.2 (ih hup)

/-- Of two siblings, one to the left ends before the other starts. -/
theorem stop_le_start (h : tree.WellFormed source) {up a b : Cursor}
    (hup : Cursor.root tree ∈ up.ancestors) {left mid right : List Cursor}
    (hchildren : up.children = left ++ a :: mid ++ b :: right) :
  a.stop ≤ b.start
  := by
  have hordered := h.ordered up (Cursor.mem_preorder_iff.mpr hup)
  rw [hchildren] at hordered
  exact (List.pairwise_append.mp hordered).2.2 a (by simp) b List.mem_cons_self

end Tree.WellFormed

end SingleUse
