import SingleUse.Traversal
import Mathlib.Data.List.Basic

/-!
# Surroundings

The traversal of a tree hands the surroundings down from node to node.  Here they are told from
the place alone: the surroundings inside a place are those of the empty way, entered at each of
its *ancestors* from the root down.  So a visit says nothing that the place does not say.
-/

namespace SingleUse

/-- A named tree from the type and the bytes of its root, the field that it fills, and what is
below. -/
def Tree.named (type : NodeType) (start stop : Nat) (field : Option Field)
    (children : List Tree) : Tree :=
  .node ⟨type, start, stop, true, false, field⟩ children

/-! ### Equality of places -/

mutual

/-- Decides whether two trees are equal. -/
def Tree.decideEq : (tree other : Tree) → Decidable (tree = other)
  | .node label children, .node label' children' =>
    match decEq label label', Tree.decideForestEq children children' with
    | isTrue hlabel, isTrue hchildren => isTrue (hlabel ▸ hchildren ▸ rfl)
    | isFalse hlabel, _ => isFalse fun h => hlabel (Tree.node.inj h).1
    | _, isFalse hchildren => isFalse fun h => hchildren (Tree.node.inj h).2

/-- Decides whether two forests are equal. -/
def Tree.decideForestEq : (forest other : List Tree) → Decidable (forest = other)
  | [], [] => isTrue rfl
  | [], _ :: _ => isFalse nofun
  | _ :: _, [] => isFalse nofun
  | tree :: rest, tree' :: rest' =>
    match Tree.decideEq tree tree', Tree.decideForestEq rest rest' with
    | isTrue htree, isTrue hrest => isTrue (htree ▸ hrest ▸ rfl)
    | isFalse htree, _ => isFalse fun h => htree (List.cons.inj h).1
    | _, isFalse hrest => isFalse fun h => hrest (List.cons.inj h).2

end

instance : DecidableEq Tree := Tree.decideEq

deriving instance DecidableEq for Crumb, Cursor

namespace Cursor

/-! ### Ancestors -/

/-- The places above a subtree at the end of a way, nearest first. -/
def above : Tree → List Crumb → List Cursor
  | _, [] => []
  | focus, ⟨label, before, after⟩ :: path =>
    ⟨.node label (before.reverse ++ focus :: after), path⟩
      :: above (.node label (before.reverse ++ focus :: after)) path

/-- The place itself and the places above it, nearest first. -/
def ancestors (c : Cursor) : List Cursor := c :: above c.focus c.path

theorem ancestors_of_parent {c up : Cursor} (h : c.parent = some up) :
  c.ancestors = c :: up.ancestors
  := by
  obtain ⟨focus, path⟩ := c
  cases path with
  | nil => simp [parent] at h
  | cons crumb path =>
    obtain rfl := Option.some.inj h
    rfl

theorem ancestors_of_parent_eq_none {c : Cursor} (h : c.parent = none) :
  c.ancestors = [c]
  := by
  obtain ⟨focus, path⟩ := c
  cases path with
  | nil => rfl
  | cons crumb path => simp [parent] at h

theorem self_mem_ancestors (c : Cursor) :
  c ∈ c.ancestors
  := List.mem_cons_self

/-- What holds of the places without a place above, and of a place if it holds of the one above,
holds of all places. -/
theorem induction_on_parent {motive : Cursor → Prop} (top : ∀ c, c.parent = none → motive c)
    (below : ∀ c up, c.parent = some up → motive up → motive c) (c : Cursor) :
  motive c
  := by
  obtain ⟨focus, path⟩ := c
  induction path generalizing focus with
  | nil => exact top _ rfl
  | cons crumb path ih => exact below _ _ rfl (ih _)

/-- The ancestors of an ancestor end the list of the ancestors. -/
theorem ancestors_suffix {c up : Cursor} (h : up ∈ c.ancestors) :
  up.ancestors <:+ c.ancestors
  := by
  induction c using induction_on_parent with
  | top c hc =>
    rw [ancestors_of_parent_eq_none hc, List.mem_singleton] at h
    subst h
    exact List.suffix_rfl
  | below c above habove ih =>
    rw [ancestors_of_parent habove] at h
    rcases List.mem_cons.mp h with rfl | h
    · exact List.suffix_rfl
    · rw [ancestors_of_parent habove]
      exact (ih h).trans (List.suffix_cons _ _)

theorem mem_ancestors_of_parent {c up : Cursor} (h : c.parent = some up) :
  up ∈ c.ancestors
  := by
  rw [ancestors_of_parent h]
  apply List.mem_cons_of_mem _ up.self_mem_ancestors

theorem mem_ancestors_trans {c up top : Cursor} (hup : up ∈ c.ancestors)
    (htop : top ∈ up.ancestors) :
  top ∈ c.ancestors
  := by
  apply (ancestors_suffix hup).mem htop

/-- What lies below a child of a place lies below the place. -/
theorem mem_ancestors_of_mem_children {c child place : Cursor} (hchild : child ∈ c.children)
    (h : child ∈ place.ancestors) :
  c ∈ place.ancestors
  := by
  apply mem_ancestors_trans h
  apply mem_ancestors_of_parent (parent_of_mem_children hchild)

/-- What holds of a place, and with an ancestor also of the place above it, holds of all
ancestors. -/
theorem induction_on_ancestors {c : Cursor} {motive : (up : Cursor) → up ∈ c.ancestors → Prop}
    (self : motive c c.self_mem_ancestors)
    (above : ∀ up top (h : up ∈ c.ancestors) (hparent : up.parent = some top), motive up h →
      motive top (mem_ancestors_trans h (mem_ancestors_of_parent hparent)))
    {up : Cursor} (h : up ∈ c.ancestors) :
  motive up h
  := by
  induction c using induction_on_parent with
  | top c hparent =>
    obtain rfl : up = c := by simpa [ancestors_of_parent_eq_none hparent] using h
    exact self
  | below c next hparent ih =>
    have hmem := h
    rw [ancestors_of_parent hparent] at hmem
    rcases List.mem_cons.mp hmem with rfl | hnext
    · exact self
    · apply ih (motive := fun up h => motive up
        (mem_ancestors_trans (mem_ancestors_of_parent hparent) h)) _ _ hnext
      · apply above c next c.self_mem_ancestors hparent self
      · intro up top hup htop
        apply above up top _ htop

end Cursor

/-! ### Surroundings of a place -/

namespace Surroundings

/-- The surroundings inside a place. -/
def inside (typeContexts : List NodeType) (c : Cursor) : Surroundings :=
  c.ancestors.foldr (fun c around => around.enter typeContexts c) {}

/-- The surroundings of a place from the places above it. -/
def around (typeContexts : List NodeType) (c : Cursor) : Surroundings :=
  (c.parent.map (inside typeContexts)).getD {}

/-- A place is entered from its surroundings. -/
theorem inside_eq (typeContexts : List NodeType) (c : Cursor) :
  inside typeContexts c = (around typeContexts c).enter typeContexts c
  := by
  cases h : c.parent with
  | none => simp [inside, around, h, Cursor.ancestors_of_parent_eq_none h]
  | some up => simp [inside, around, h, Cursor.ancestors_of_parent h]

theorem around_of_parent {typeContexts : List NodeType} {c up : Cursor}
    (h : c.parent = some up) :
  around typeContexts c = inside typeContexts up
  := by
  rw [around, h]
  rfl

/-- A place lies in broken code exactly if it or a place above it is broken. -/
theorem inError_inside {typeContexts : List NodeType} {c : Cursor} :
  (inside typeContexts c).inError ↔ ∃ up ∈ c.ancestors, up.category = .error
  := by
  rw [inside]
  induction c.ancestors with
  | nil => simp
  | cons up rest ih =>
    rw [List.foldr_cons, enter]
    simp only [Bool.or_eq_true, decide_eq_true_eq, ih]
    simp [or_comm]

end Surroundings

/-! ### Visited places -/

namespace Cursor

/-- The places at or below a place that are visited, in pre-order. -/
def visited (c : Cursor) : List Cursor :=
  c :: if c.isOpen then c.namedChildren.attach.flatMap fun child => visited child.1 else []
termination_by c.focus.size
decreasing_by exact size_lt_of_mem_children (List.mem_filter.mp child.2).1

theorem visited_eq (c : Cursor) :
  c.visited = c :: if c.isOpen then c.namedChildren.flatMap visited else []
  := by
  rw [visited]
  simp [List.flatMap_subtype]

/-- What holds of a place if it holds of its children holds of all places. -/
theorem induction_on_children {motive : Cursor → Prop}
    (step : ∀ c, (∀ child ∈ c.children, motive child) → motive c) (c : Cursor) :
  motive c
  := step c fun child _ => induction_on_children step child
termination_by c.focus.size
decreasing_by
  rename_i hchild
  exact size_lt_of_mem_children hchild

/-- What holds of a place if it holds of its named children holds of all places. -/
theorem induction_on_namedChildren {motive : Cursor → Prop}
    (step : ∀ c, (∀ child ∈ c.namedChildren, motive child) → motive c) (c : Cursor) :
  motive c
  := by
  induction c using induction_on_children with
  | step c ih =>
    apply step
    intro child hchild
    exact ih child (List.mem_filter.mp hchild).1

theorem parent_of_mem_namedChildren {c child : Cursor} (h : child ∈ c.namedChildren) :
  child.parent = some c
  := parent_of_mem_children (List.mem_filter.mp h).1

theorem self_mem_visited (c : Cursor) :
  c ∈ c.visited
  := by
  rw [visited_eq]
  apply List.mem_cons_self

/-- A visited place lies at or below the place from which the visits start. -/
theorem mem_ancestors_of_mem_visited {c place : Cursor} (h : place ∈ c.visited) :
  c ∈ place.ancestors
  := by
  induction c using induction_on_namedChildren with
  | step c ih =>
    rw [visited_eq] at h
    rcases List.mem_cons.mp h with rfl | h
    · apply self_mem_ancestors
    · split at h
      · obtain ⟨child, hchild, hplace⟩ := List.mem_flatMap.mp h
        apply mem_ancestors_of_mem_children (List.mem_filter.mp hchild).1 (ih child hchild hplace)
      · simp at h

/-- The place above a visited one is visited, or lies above the place from which the visits
start. -/
theorem parent_mem_visited {c place up : Cursor} (h : place ∈ c.visited)
    (hparent : place.parent = some up) :
  place = c ∨ up ∈ c.visited
  := by
  induction c using induction_on_namedChildren with
  | step c ih =>
    rw [visited_eq] at h
    rcases List.mem_cons.mp h with rfl | h
    · exact .inl rfl
    · right
      split at h
      · rename_i hopen
        obtain ⟨child, hchild, hplace⟩ := List.mem_flatMap.mp h
        rcases ih child hchild hplace with rfl | hup
        · rw [parent_of_mem_namedChildren hchild] at hparent
          obtain rfl := Option.some.inj hparent
          apply self_mem_visited
        · rw [visited_eq, if_pos hopen]
          apply List.mem_cons_of_mem
          apply List.mem_flatMap.mpr
          exact ⟨child, hchild, hup⟩
      · simp at h

end Cursor

/-! ### Visits -/

/-- The visit of a place. -/
def Visit.at (typeContexts : List NodeType) (c : Cursor) : Visit :=
  .ofNode typeContexts (.around typeContexts c) c

theorem Visit.here_at (typeContexts : List NodeType) (c : Cursor) :
  (Visit.at typeContexts c).here = .inside typeContexts c
  := (Surroundings.inside_eq typeContexts c).symm

namespace Tree

/-- The visits of a forest are those of its named trees, each at its place. -/
theorem forestVisits_eq (typeContexts : List NodeType) (around : Surroundings) (label : Label)
    (path : List Crumb) (before forest : List Tree) :
  forestVisits typeContexts around label path before forest
    = ((Cursor.among label path before forest).filter Cursor.named).flatMap fun child =>
        child.focus.visits typeContexts around child.path
  := by
  induction forest generalizing before with
  | nil => simp [forestVisits, Cursor.among]
  | cons tree after ih =>
    rw [forestVisits, Cursor.among, ih, List.filter_cons]
    have hnamed : Cursor.named ⟨tree, ⟨label, before, after⟩ :: path⟩ = tree.label.named := rfl
    rw [hnamed]
    split <;> simp

/-- The visits of the subtree at a place: that of the place, and those of the named subtrees below
if it is open. -/
theorem visits_focus (typeContexts : List NodeType) (around : Surroundings) (c : Cursor) :
  c.focus.visits typeContexts around c.path
    = .ofNode typeContexts around c
      :: if c.isOpen then
          c.namedChildren.flatMap fun child =>
            child.focus.visits typeContexts (around.enter typeContexts c) child.path
        else []
  := by
  obtain ⟨⟨label, children⟩, path⟩ := c
  rw [visits, forestVisits_eq]
  rfl

/-- The visits of the subtree at a place are those of the places visited from there. -/
theorem visits_eq (typeContexts : List NodeType) (c : Cursor) :
  c.focus.visits typeContexts (.around typeContexts c) c.path
    = c.visited.map (Visit.at typeContexts)
  := by
  induction c using Cursor.induction_on_namedChildren with
  | step c ih =>
    rw [visits_focus, Cursor.visited_eq, List.map_cons, ← Surroundings.inside_eq]
    congr 1
    split
    · rw [List.map_flatMap]
      apply List.flatMap_congr
      intro child hchild
      rw [← ih child hchild,
        Surroundings.around_of_parent (Cursor.parent_of_mem_namedChildren hchild)]
    · rfl

/-- A tree is traversed by visiting its places. -/
theorem traverse_eq (tree : Tree) (typeContexts : List NodeType) :
  tree.traverse typeContexts = (Cursor.root tree).visited.map (Visit.at typeContexts)
  := visits_eq typeContexts (.root tree)

end Tree

end SingleUse
