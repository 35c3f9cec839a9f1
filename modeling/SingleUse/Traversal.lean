import SingleUse.Scope

/-!
# Traversal

A syntax tree is visited in pre-order, tokens left out.  Each visit comes with its
*surroundings*: the scope, the function, the loops, and whether the place lies in broken code or
in a type.  Below imports, re-exports and identifiers nothing is visited.
-/

namespace SingleUse

/-- Whether identifiers at a place name values or types. -/
inductive TypeMode where
  | value
  /-- Identifiers name types. -/
  | type
  /-- A value is asked for its type. -/
  | query
deriving DecidableEq, Repr

/-- What is known of a place from the nodes above it. -/
structure Surroundings where
  scope : Option ScopeKey := none
  function : Option ScopeKey := none
  loops : List LoopSpan := []
  inError : Bool := false
  typeMode : TypeMode := .value

/-- One visit of the traversal. -/
structure Visit where
  node : Cursor
  /-- The scope around the node. -/
  outer : Option ScopeKey
  /-- The scope that the node opens. -/
  opens : Option ScopeKind
  /-- The surroundings of what is below the node; those of the node itself if it opens no
  scope. -/
  here : Surroundings

namespace Surroundings

/-- The surroundings inside a node, where `typeContexts` are the nodes in which types stand. -/
def enter (around : Surroundings) (typeContexts : List NodeType) (c : Cursor) : Surroundings where
  scope := if c.scopeKind.isSome then some (.ofNode c) else around.scope
  function := if c.scopeKind.any (·.hoists) then some (.ofNode c) else around.function
  loops := around.loops ++ c.loop?.toList
  inError := around.inError || c.category = .error
  typeMode :=
    if c.type = .typeQuery then .query
    else if around.typeMode = .value && typeContexts.contains c.type then .type
    else around.typeMode

end Surroundings

/-- Whether the nodes below a node are visited. -/
def Cursor.isOpen (c : Cursor) : Bool :=
  match c.category with
  | .importStatement | .identifier => false
  | .exportStatement => (c.childByField .source).isNone
  | _ => true

/-- The visit of a node. -/
def Visit.ofNode (typeContexts : List NodeType) (around : Surroundings) (c : Cursor) : Visit :=
  ⟨c, around.scope, c.scopeKind, around.enter typeContexts c⟩

mutual

/-- The visits of a tree below the way `path`. -/
def Tree.visits (typeContexts : List NodeType) (around : Surroundings) (path : List Crumb) :
    Tree → List Visit
  | .node label children =>
    let visit := Visit.ofNode typeContexts around ⟨.node label children, path⟩
    visit ::
      if visit.node.isOpen then Tree.forestVisits typeContexts visit.here label path [] children
      else []

/-- The visits of the named trees of a forest below a node labelled `label`; `before` are the
trees to the left, nearest first. -/
def Tree.forestVisits (typeContexts : List NodeType) (around : Surroundings) (label : Label)
    (path : List Crumb) (before : List Tree) : List Tree → List Visit
  | [] => []
  | tree :: after =>
    (if tree.label.named then
        Tree.visits typeContexts around (⟨label, before, after⟩ :: path) tree
      else [])
    ++ Tree.forestVisits typeContexts around label path (tree :: before) after

end

/-- The visits of a whole tree. -/
def Tree.traverse (tree : Tree) (typeContexts : List NodeType) : List Visit :=
  tree.visits typeContexts {} []

/-- The scope that a visit opens. -/
def Visit.scope? (visit : Visit) (source : Bytes) : Option Scope :=
  visit.opens.map fun kind =>
    ⟨.ofNode visit.node, kind, visit.outer, (Position.ofOffset source visit.node.start).row⟩

/-- The scopes that are opened in the course of some visits. -/
def ScopeTree.ofVisits (source : Bytes) (visits : List Visit) : ScopeTree :=
  (visits.filterMap (·.scope? source)).foldl insert {}

end SingleUse
