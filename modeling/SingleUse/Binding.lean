import SingleUse.Exclusion
import SingleUse.Occurrence
import SingleUse.Text.Quoted

/-!
# Bindings

A *binding* is a name declared in a scope.  Name and scope together are its key: the same name
declared in the two arms of a conditional makes two bindings.  A binding also carries what has
been found out about its reads.
-/

namespace SingleUse

/-- The form in which a name is declared. -/
inductive BindingShape where
  | simple | arrayElement | objectProperty
deriving DecidableEq, Repr

/-- How a form is reported. -/
def BindingShape.name : BindingShape → String
  | simple => "simple"
  | arrayElement => "array-pattern-element"
  | objectProperty => "object-pattern-property"

/-- The form that is reported by a name. -/
def BindingShape.ofName? (name : String) : Option BindingShape :=
  [simple, arrayElement, objectProperty].find? fun shape => shape.name == name

/-- What introduces a name.  Only what a declarator introduces is ever reported. -/
inductive Origin where
  | declarator | parameter | function | classLike | catchClause | importStatement | loopVariable
deriving DecidableEq, Repr

/-- How an origin is reported. -/
def Origin.name : Origin → String
  | declarator => "variable"
  | parameter => "parameter"
  | function => "function"
  | classLike => "class"
  | catchClause => "catch"
  | importStatement => "import"
  | loopVariable => "loop-variable"

/-- The origin that is reported by a name. -/
def Origin.ofName? (name : String) : Option Origin :=
  [declarator, parameter, function, classLike, catchClause, importStatement, loopVariable].find?
    fun origin => origin.name == name

/-- The identity of a binding. -/
structure BindingKey where
  name : String
  scope : Option ScopeKey
deriving DecidableEq

/-- A declared name. -/
structure Binding where
  name : String
  /-- The scope that the name belongs to. -/
  scope : Option ScopeKey
  shape : BindingShape := .simple
  origin : Origin := .declarator
  /-- The declarator, or whatever node declares the name. -/
  declaration : Option Cursor := none
  /-- The identifier that names the binding. -/
  target : Option Cursor := none
  initializer : Option Cursor := none
  /-- The scope that the declaration stands in; another one than `scope` when `var` hoists. -/
  lexical : Option ScopeKey := none
  /-- The innermost function or program around the declaration. -/
  function : Option ScopeKey := none
  loops : List LoopSpan := []
  patternKey : Option Cursor := none
  patternIndex : Option Nat := none
  /-- The number of reads. -/
  useCount : Nat := 0
  /-- The last read. -/
  lastRead : Option Occurrence := none
  rejection : Option Exclusion := none
  exported : Bool := false
  reassigned : Bool := false
  redeclared : Bool := false
  malformed : Bool := false
  /-- The number of reads that were found by name only. -/
  fallbackReads : Nat := 0

namespace Binding

/-- Name and scope. -/
def key (b : Binding) : BindingKey := ⟨b.name, b.scope⟩

/-- The statement that a declarator stands in. -/
def statement (b : Binding) : Option Cursor :=
  if b.origin = .declarator then b.declaration.bind (·.parent) else none

/-- Where the declared name stands; the start of the source if that is not known. -/
def position (b : Binding) (source : Bytes) : Position :=
  match b.target.or b.declaration with
  | some anchor => .ofOffset source anchor.start
  | none => ⟨0, 0⟩

/-- A one-line description. -/
def describe (b : Binding) (source : Bytes) : String :=
  s!"Binding({Text.quote b.name}, {b.shape.name}, {b.origin.name}, "
    ++ s!"line={(b.position source).row + 1}, uses={b.useCount})"

/-- The binding after another declaration of its key. -/
def redeclare (b : Binding) (again : Binding) : Binding :=
  { b with redeclared := true, malformed := b.malformed || again.malformed }

/-- The binding after a read. -/
def count (b : Binding) (read : Occurrence) (fallback : Bool) : Binding :=
  { b with
    useCount := b.useCount + 1
    lastRead := some read
    fallbackReads := if fallback then b.fallbackReads + 1 else b.fallbackReads
    reassigned := b.reassigned || read.role = .assignmentTarget
    malformed := b.malformed || read.inError
    exported := b.exported || read.isExport }

/-- Another declaration of its key leaves the key of a binding as it is. -/
theorem key_redeclare (b again : Binding) :
  (b.redeclare again).key = b.key
  := rfl

/-- A read leaves the key of a binding as it is. -/
theorem key_count (b : Binding) (read : Occurrence) (fallback : Bool) :
  (b.count read fallback).key = b.key
  := rfl

end Binding

end SingleUse
