import SingleUse.Tree.Cursor

/-!
# Patterns

A pattern is what may stand to the left of `=`, or in a parameter list.  `targets` lists the
identifiers it declares or assigns.  The patterns `[ , , a]`, `{ a }` and `{ key: a }` declare
a single name and nothing else happens on the way to its value; `single` tells them apart.
-/

namespace SingleUse.Cursor

/-- The parts of a pattern in which its targets are found.  Default values and computed keys
are expressions and no such parts. -/
def patternParts (c : Cursor) : List Cursor :=
  match c.type with
  | .objectPattern | .arrayPattern | .formalParameters | .restPattern => c.significantChildren
  | .pairPattern => (c.childByField .value).toList
  | .assignmentPattern | .objectAssignmentPattern => (c.childByField .left).toList
  | .requiredParameter | .optionalParameter => (c.childByField .pattern).toList
  | _ => []

theorem size_lt_of_mem_patternParts {c part : Cursor} (h : part ∈ c.patternParts) :
  part.focus.size < c.focus.size
  := by
  unfold patternParts at h
  split at h
  all_goals first
    | exact size_lt_of_mem_significantChildren h
    | exact size_lt_of_childByField (Option.mem_toList.1 h)
    | simp at h

/-- Whether a node is itself a target. -/
def isTarget : NodeType → Bool
  | .identifier | .shorthandPropertyIdentifierPattern => true
  | _ => false

/-- The identifiers that a pattern declares or assigns, from left to right. -/
def targets (c : Cursor) : List Cursor :=
  if isTarget c.type then [c]
  else c.patternParts.attach.flatMap fun part => targets part.1
termination_by c.focus.size
decreasing_by exact size_lt_of_mem_patternParts part.2

/-- The targets of a pattern that is no target are those of its parts. -/
theorem targets_eq (c : Cursor) :
  c.targets = if isTarget c.type then [c] else c.patternParts.flatMap targets
  := by
  rw [targets]
  simp [List.flatMap_subtype]

/-- A pattern that declares a single name. -/
inductive SinglePattern where
  /-- The element at a position of an array. -/
  | element (target : Cursor) (index : Nat)
  /-- The property of an object under a key; in `{ a }` the key is the target itself. -/
  | property (target key : Cursor)

/-- The name that a single pattern declares. -/
def SinglePattern.target : SinglePattern → Cursor
  | element target _ => target
  | property target _ => target

/-- The key of a property. -/
def SinglePattern.key : SinglePattern → Option Cursor
  | element _ _ => none
  | property _ key => some key

/-- The position of an element. -/
def SinglePattern.index : SinglePattern → Option Nat
  | element _ index => some index
  | property _ _ => none

/-- The number of commas before the first node that covers the given bytes. -/
def commasBefore (span : Span) (nodes : List Cursor) : Nat :=
  (nodes.takeWhile fun node => node.type = .comma ∨ node.span ≠ span).countP
    fun node => node.type = .comma

/-- The single pattern in focus.  Rest elements, defaults, nested patterns and patterns with
more than one name are none. -/
def single (c : Cursor) : Option SinglePattern :=
  match c.significantChildren with
  | [element] =>
    if c.type = .arrayPattern then
      if element.type = .identifier then
        some (.element element (commasBefore element.span c.children))
      else none
    else
      match element.type with
      | .shorthandPropertyIdentifierPattern => some (.property element element)
      | .pairPattern =>
        match element.childByField .value, element.childByField .key with
        | some value, some key =>
          if value.type = .identifier then some (.property value key) else none
        | _, _ => none
      | _ => none
  | _ => none

end SingleUse.Cursor
