import SingleUse.Scope

/-!
# Occurrences

An occurrence is an identifier in the source together with what is known of its place: its
role there, the scope and the function around it, and the loops that it runs in.
-/

namespace SingleUse

/-- What an identifier does where it stands. -/
inductive Role where
  | declarationTarget
  | read
  | objectPropertyKey
  | objectPropertyShorthand
  | memberPropertyName
  | assignmentTarget
deriving DecidableEq, Repr

namespace Role

/-- How a role is reported. -/
def name : Role → String
  | declarationTarget => "declaration-target"
  | read => "read"
  | objectPropertyKey => "object-property-key"
  | objectPropertyShorthand => "object-property-shorthand"
  | memberPropertyName => "member-property-name"
  | assignmentTarget => "assignment-target"

/-- Every role once. -/
def all : List Role :=
  [declarationTarget, read, objectPropertyKey, objectPropertyShorthand, memberPropertyName,
    assignmentTarget]

/-- The role that is reported by a name. -/
def ofName? (name : String) : Option Role :=
  all.find? fun role => role.name == name

/-- Whether an identifier in this role uses a variable. -/
def counts : Role → Bool
  | read | objectPropertyShorthand | assignmentTarget => true
  | _ => false

end Role

/-- An identifier at its place. -/
structure Occurrence where
  node : Cursor
  name : String
  role : Role
  scope : Option ScopeKey
  function : Option ScopeKey := none
  loops : List LoopSpan := []
  inError : Bool := false
  /-- Whether a value is read inside a type. -/
  inType : Bool := false

/-- The bytes of the identifier. -/
def Occurrence.span (o : Occurrence) : Span := o.node.span

/-- Whether the identifier is named in an export. -/
def Occurrence.isExport (o : Occurrence) : Bool :=
  o.node.parentIn [.exportSpecifier, .exportStatement]

end SingleUse
