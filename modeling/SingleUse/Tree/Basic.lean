import SingleUse.Tree.NodeType
import SingleUse.Text.Utf8

/-!
# Syntax trees

A syntax tree is a rose tree of *labels*.  A label says of a node what the parser says of it
apart from its children: its type, the half-open range of bytes it covers, whether it is named
(tokens are not), whether the parser made it up because it was missing in the source, and the
field it fills in its parent.

A parser delivers a tree as a list in pre-order, each node with the index of its parent;
`Tree.ofListing` builds the tree from such a list.
-/

namespace SingleUse

/-- A half-open range of byte offsets. -/
structure Span where
  start : Nat
  stop : Nat
deriving DecidableEq, Repr

/-- What is said of one node. -/
structure Label where
  type : NodeType
  start : Nat
  stop : Nat
  named : Bool
  missing : Bool
  field : Option Field
deriving DecidableEq

/-- The range that a label covers. -/
def Label.span (label : Label) : Span := ⟨label.start, label.stop⟩

/-- A rose tree of labels. -/
inductive Tree where
  | node (label : Label) (children : List Tree)

namespace Tree

/-- What is said of the root. -/
def label : Tree → Label
  | node label _ => label

/-- The trees below the root. -/
def children : Tree → List Tree
  | node _ children => children

mutual

/-- The number of nodes. -/
def size : Tree → Nat
  | node _ children => forestSize children + 1

/-- The number of nodes of a list of trees. -/
def forestSize : List Tree → Nat
  | [] => 0
  | tree :: rest => tree.size + forestSize rest

end

/-- A tree of a list has no more nodes than the list. -/
theorem size_le_forestSize {tree : Tree} {forest : List Tree} (h : tree ∈ forest) :
  tree.size ≤ forestSize forest
  := by
  induction forest with
  | nil => simp at h
  | cons head rest ih =>
    rcases List.mem_cons.1 h with rfl | h
    · simp only [forestSize]; omega
    · simp only [forestSize]; have := ih h; omega

/-- A child is smaller than its parent. -/
theorem size_lt_of_mem_children {tree child : Tree} (h : child ∈ tree.children) :
  child.size < tree.size
  := by
  obtain ⟨label, children⟩ := tree
  have := size_le_forestSize h
  simp only [Tree.children, size] at this ⊢
  omega

/-- A node as a parser lists it; a root has no parent. -/
structure Entry where
  label : Label
  parent : Option Nat

/-- The trees whose roots have the given parent, in list order, where `entries` pairs each
entry with its index.  The children of an entry come after it, so every step works on a
shorter list. -/
def forestOfListing (parent : Option Nat) : List (Nat × Entry) → List Tree
  | [] => []
  | (index, entry) :: rest =>
    if entry.parent = parent then
      node entry.label (forestOfListing (some index) rest) :: forestOfListing parent rest
    else forestOfListing parent rest

/-- The tree of a pre-order listing. -/
def ofListing (entries : List Entry) : Option Tree :=
  (forestOfListing none ((List.range entries.length).zip entries)).head?

end Tree

/-- The place of a byte offset in a source: the number of line ends before it, and the number
of bytes since the last of them. -/
structure Position where
  row : Nat
  column : Nat
deriving DecidableEq, Repr

/-- The byte that ends a line. -/
def lineFeed : UInt8 := 0x0A

/-- The number of bytes after the last line end. -/
def trailing (bytes : Bytes) : Nat := (bytes.reverse.takeWhile (· != lineFeed)).length

/-- Where a byte offset lies. -/
def Position.ofOffset (source : Bytes) (offset : Nat) : Position :=
  let before := source.take offset
  ⟨before.countP (· == lineFeed), offset - (before.length - trailing before)⟩

end SingleUse
