import SingleUse.Tree.Category

/-!
# Scopes

A *scope* is a part of the source in which names are declared.  It is identified by its *key*,
the span and the type of the node that opens it, so that the two arms of a conditional or the
cases of a switch have different keys although they stand side by side.

A `ScopeTree` holds the scopes of one source in the order in which they were opened, each with
the key of the scope around it.  The *chain* of a key is the key followed by those of the
scopes around it, nearest first; names are looked up along it.
-/

namespace SingleUse

/-- What opens a scope. -/
inductive ScopeKind where
  | program | function | block | branch | case | loop | catchClause | classLike
deriving DecidableEq, Repr

namespace ScopeKind

/-- How a kind of scope is reported. -/
def name : ScopeKind → String
  | program => "program"
  | function => "function"
  | block => "block"
  | branch => "branch"
  | case => "case"
  | loop => "loop"
  | catchClause => "catch"
  | classLike => "class"

/-- Every kind once. -/
def all : List ScopeKind :=
  [program, function, block, branch, case, loop, catchClause, classLike]

/-- The kind that is reported by a name. -/
def ofName? (name : String) : Option ScopeKind :=
  all.find? fun kind => kind.name == name

/-- Functions and the program receive the names that `var` declares in the scopes below. -/
def hoists : ScopeKind → Bool
  | program | function => true
  | _ => false

end ScopeKind

/-- The identity of a scope: span and type of the node that opens it. -/
structure ScopeKey where
  start : Int
  stop : Int
  type : NodeType
deriving DecidableEq

namespace ScopeKey

/-- The key of the scope that a node opens. -/
def ofNode (c : Cursor) : ScopeKey := ⟨c.start, c.stop, c.type⟩

/-- Whether what lies between two offsets lies within the scope. -/
def contains (key : ScopeKey) (start stop : Int) : Bool := key.start ≤ start && stop ≤ key.stop

end ScopeKey

/-- The scope that a node opens, if any.  The first arm of a conditional opens one whatever
statement it is.  A class expression opens one for its own name, whereas a class declaration
binds its name outside. -/
def Cursor.scopeKind (c : Cursor) : Option ScopeKind :=
  let isFirstArm := c.parent.any fun parent =>
    parent.type == .ifStatement && (parent.childByField .consequence).any (·.sameNode c)
  if isFirstArm then some .branch
  else
    match c.category with
    | .program => some .program
    | .function | .field => some .function
    | .block => some .block
    | .branch => some .branch
    | .switchCase => some .case
    | .loop => some .loop
    | .catchClause => some .catchClause
    | .classLike => if c.type = .classExpression then some .classLike else none
    | _ => none

/-- The two families of loops. -/
inductive LoopKind where
  /-- Loops by `for`, `for`-`in` and `for`-`of`. -/
  | counted
  /-- Loops by `while` and `do`. -/
  | conditional
deriving DecidableEq, Repr

/-- How a family of loops is reported. -/
def LoopKind.name : LoopKind → String
  | counted => Category.loop.name
  | conditional => Category.whileLoop.name

/-- A loop around a place. -/
structure LoopSpan where
  start : Int
  stop : Int
  kind : LoopKind
deriving DecidableEq, Repr

/-- The loop that a node is, if any. -/
def Cursor.loop? (c : Cursor) : Option LoopSpan :=
  match c.category with
  | .loop => some ⟨c.start, c.stop, .counted⟩
  | .whileLoop => some ⟨c.start, c.stop, .conditional⟩
  | _ => none

/-- One scope. -/
structure Scope where
  key : ScopeKey
  kind : ScopeKind
  parent : Option ScopeKey
  row : Nat
deriving DecidableEq

/-- A short description: the kind and the line on which the scope starts. -/
def Scope.describe (scope : Scope) : String :=
  s!"{scope.kind.name}@{scope.row + 1}"

/-- The scopes of a source in the order of their opening, and the first one that was opened
without a scope around it. -/
structure ScopeTree where
  scopes : List Scope := []
  root : Option ScopeKey := none

namespace ScopeTree

/-- The scope with a key. -/
def get? (tree : ScopeTree) (key : ScopeKey) : Option Scope :=
  tree.scopes.find? fun scope => scope.key = key

/-- Whether a key has been opened. -/
def contains (tree : ScopeTree) (key : ScopeKey) : Bool := (tree.get? key).isSome

/-- The number of scopes. -/
def size (tree : ScopeTree) : Nat := tree.scopes.length

/-- Opens a scope.  A key that is open already stays as it is. -/
def insert (tree : ScopeTree) (scope : Scope) : ScopeTree where
  scopes := if tree.contains scope.key then tree.scopes else tree.scopes ++ [scope]
  root := if scope.parent.isNone && tree.root.isNone then some scope.key else tree.root

/-- The key of the scope around a scope. -/
def parent (tree : ScopeTree) (key : ScopeKey) : Option ScopeKey :=
  (tree.get? key).bind (·.parent)

/-- The first `n` keys of a chain. -/
def chainUpTo (tree : ScopeTree) : Nat → Option ScopeKey → List ScopeKey
  | 0, _ => []
  | _, none => []
  | n + 1, some key => key :: chainUpTo tree n (tree.parent key)

/-- The key and those of all scopes around it, nearest first.  Every key of a chain but the
last is open, so a chain is at most one longer than the list of scopes. -/
def chain (tree : ScopeTree) (key : Option ScopeKey) : List ScopeKey :=
  tree.chainUpTo (tree.size + 1) key

/-- The first key of a chain that belongs to a function or the program; none when a key that
was never opened comes first. -/
def hoistingKey? (tree : ScopeTree) : List ScopeKey → Option (Option ScopeKey)
  | [] => some none
  | key :: rest =>
    match tree.get? key with
    | none => none
    | some scope => if scope.kind.hoists then some (some key) else tree.hoistingKey? rest

/-- The scope that receives the names declared by `var` in the scope `key`: the nearest
function or program, or else the scope itself.  None when the chain meets a key that was never
opened. -/
def functionScope? (tree : ScopeTree) (key : Option ScopeKey) : Option (Option ScopeKey) :=
  (tree.hoistingKey? (tree.chain key)).map fun found => found.or key

/-- The same as `functionScope?` for a key whose chain is open throughout. -/
def functionScope (tree : ScopeTree) (key : Option ScopeKey) : Option ScopeKey :=
  (tree.functionScope? key).getD key

/-- Whether the scope `outer` is `inner` or lies around it. -/
def isAncestor (tree : ScopeTree) (outer inner : Option ScopeKey) : Bool :=
  outer.any (tree.chain inner).contains

/-- The description of a scope, or a question mark. -/
def describe (tree : ScopeTree) (key : Option ScopeKey) : String :=
  match key.bind tree.get? with
  | some scope => scope.describe
  | none => "?"

end ScopeTree

end SingleUse
