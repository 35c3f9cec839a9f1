import SingleUse.Tree.Basic

/-!
# Cursors

A cursor is a place in a syntax tree: the subtree in focus together with the way up, one
*crumb* for each ancestor.  A crumb remembers the ancestor's label and the siblings to the
left (nearest first) and to the right of the branch that was taken.  Parents, siblings and
children of a place are computed from it, so that a place needs no address in the tree.
-/

namespace SingleUse

/-- One step of the way from a place up to the root. -/
structure Crumb where
  label : Label
  before : List Tree
  after : List Tree

/-- A place in a syntax tree. -/
structure Cursor where
  focus : Tree
  path : List Crumb

namespace Cursor

/-- The root of a tree. -/
def root (tree : Tree) : Cursor := ⟨tree, []⟩

/-- What is said of the node in focus. -/
def label (c : Cursor) : Label := c.focus.label

/-- The type of the node in focus. -/
def type (c : Cursor) : NodeType := c.label.type

/-- The first byte of the node in focus. -/
def start (c : Cursor) : Nat := c.label.start

/-- The offset just after the node in focus. -/
def stop (c : Cursor) : Nat := c.label.stop

/-- The bytes that the node in focus covers. -/
def span (c : Cursor) : Span := c.label.span

/-- Whether the node in focus is more than a token. -/
def named (c : Cursor) : Bool := c.label.named

/-- Whether the parser made the node in focus up. -/
def missing (c : Cursor) : Bool := c.label.missing

/-! ### Moving about -/

/-- The places of the trees of a forest, below the way `path` that ends in a node labelled
`label`; `before` are the trees to the left, nearest first. -/
def among (label : Label) (path : List Crumb) (before : List Tree) : List Tree → List Cursor
  | [] => []
  | tree :: after =>
    ⟨tree, ⟨label, before, after⟩ :: path⟩ :: among label path (tree :: before) after

/-- The places just below. -/
def children (c : Cursor) : List Cursor :=
  among c.label c.path [] c.focus.children

/-- The place just above. -/
def parent (c : Cursor) : Option Cursor :=
  match c.path with
  | [] => none
  | crumb :: path => some ⟨.node crumb.label (crumb.before.reverse ++ c.focus :: crumb.after), path⟩

/-- The next place to the right below the same parent. -/
def next (c : Cursor) : Option Cursor :=
  match c.path with
  | ⟨label, before, tree :: after⟩ :: path => some ⟨tree, ⟨label, c.focus :: before, after⟩ :: path⟩
  | _ => none

/-- The next place to the left below the same parent. -/
def prev (c : Cursor) : Option Cursor :=
  match c.path with
  | ⟨label, tree :: before, after⟩ :: path => some ⟨tree, ⟨label, before, c.focus :: after⟩ :: path⟩
  | _ => none

/-- The places below that are named. -/
def namedChildren (c : Cursor) : List Cursor := c.children.filter named

/-- The named places below that are no comments. -/
def significantChildren (c : Cursor) : List Cursor :=
  c.namedChildren.filter fun child => child.type ≠ .comment

/-- The places below that fill a field. -/
def childrenByField (c : Cursor) (field : Field) : List Cursor :=
  c.children.filter fun child => child.label.field = some field

/-- The first place below that fills a field. -/
def childByField (c : Cursor) (field : Field) : Option Cursor :=
  (c.childrenByField field).head?

/-- The number of places that come before this one in pre-order. -/
def index (c : Cursor) : Nat :=
  c.path.foldr (fun crumb count => Tree.forestSize crumb.before + 1 + count) 0

/-- Same type and same bytes. -/
def sameNode (a b : Cursor) : Bool :=
  a.start == b.start && a.stop == b.stop && a.type == b.type

/-- Whether a node like `child` fills a field of `parent`. -/
def isField (parent : Cursor) (field : Field) (child : Cursor) : Bool :=
  (parent.childrenByField field).any fun candidate => candidate.sameNode child

/-- Whether the place above has one of the given types. -/
def parentIn (c : Cursor) (types : List NodeType) : Bool :=
  c.parent.any fun parent => types.contains parent.type

/-- The bytes of the node in focus. -/
def bytes (c : Cursor) (source : Bytes) : Bytes := source.slice c.start c.stop

/-- The bytes of the node in focus read as text. -/
def text (c : Cursor) (source : Bytes) : String := Utf8.decodeLossy (c.bytes source)

/-! ### Laws of moving -/

theorem focus_mem_of_mem_among {label : Label} {path : List Crumb} {before forest : List Tree}
    {c : Cursor} (h : c ∈ among label path before forest) :
  c.focus ∈ forest
  := by
  induction forest generalizing before with
  | nil => simp [among] at h
  | cons tree after ih =>
    rcases List.mem_cons.1 h with rfl | h
    · simp
    · exact List.mem_cons_of_mem _ (ih h)

/-- The subtrees just below are the children of the subtree in focus. -/
theorem focus_mem_children {c child : Cursor} (h : child ∈ c.children) :
  child.focus ∈ c.focus.children
  := focus_mem_of_mem_among h

/-- Going down makes the subtree smaller. -/
theorem size_lt_of_mem_children {c child : Cursor} (h : child ∈ c.children) :
  child.focus.size < c.focus.size
  := Tree.size_lt_of_mem_children (focus_mem_children h)

theorem size_lt_of_mem_significantChildren {c child : Cursor}
    (h : child ∈ c.significantChildren) :
  child.focus.size < c.focus.size
  := size_lt_of_mem_children (List.mem_filter.1 (List.mem_filter.1 h).1).1

theorem size_lt_of_childByField {c child : Cursor} {field : Field}
    (h : c.childByField field = some child) :
  child.focus.size < c.focus.size
  := size_lt_of_mem_children (List.mem_filter.1 (List.mem_of_mem_head? h)).1

/-- Going up makes the way shorter. -/
theorem length_path_lt_of_parent {c above : Cursor} (h : c.parent = some above) :
  above.path.length < c.path.length
  := by
  obtain ⟨focus, path⟩ := c
  cases path with
  | nil => simp [parent] at h
  | cons crumb path =>
    simp only [parent, Option.some.injEq] at h
    subst h
    simp

theorem parent_of_mem_among {label : Label} {path : List Crumb} {before forest : List Tree}
    {c : Cursor} (h : c ∈ among label path before forest) :
  c.parent = some ⟨.node label (before.reverse ++ forest), path⟩
  := by
  induction forest generalizing before with
  | nil => simp [among] at h
  | cons tree after ih =>
    rcases List.mem_cons.1 h with rfl | h
    · rfl
    · simp [ih h]

/-- The place above a place below is the place itself. -/
theorem parent_of_mem_children {c child : Cursor} (h : child ∈ c.children) :
  child.parent = some c
  := by
  obtain ⟨⟨label, children⟩, path⟩ := c
  exact parent_of_mem_among h

/-! ### All places -/

/-- The place itself and all below it, in pre-order. -/
def preorder (c : Cursor) : List Cursor :=
  c :: c.children.attach.flatMap fun child => preorder child.1
termination_by c.focus.size
decreasing_by exact size_lt_of_mem_children child.2

end Cursor

end SingleUse
