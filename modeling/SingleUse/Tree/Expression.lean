import SingleUse.Tree.Cursor

/-!
# Wrapped expressions

Parentheses and type casts do not change which expression is being initialised.  `unwrap`
goes through them.
-/

namespace SingleUse.Cursor

/-- Whether nodes of a type only wrap the expression inside. -/
def isWrapper : NodeType → Bool
  | .parenthesizedExpression | .asExpression | .satisfiesExpression | .nonNullExpression
  | .typeAssertion => true
  | _ => false

/-- The expression just inside a wrapper: the last part of an angle-bracket cast, which starts
with the type, and the first part of every other wrapper. -/
def wrapped (c : Cursor) : Option Cursor :=
  if isWrapper c.type then
    if c.type = .typeAssertion then c.significantChildren.getLast?
    else c.significantChildren.head?
  else none

theorem size_lt_of_wrapped {c inner : Cursor} (h : c.wrapped = some inner) :
  inner.focus.size < c.focus.size
  := by
  unfold wrapped at h
  split at h
  · split at h
    · exact size_lt_of_mem_significantChildren (List.mem_of_getLast? h)
    · exact size_lt_of_mem_significantChildren (List.mem_of_mem_head? h)
  · simp at h

/-- The expression inside all wrappers. -/
def unwrap (c : Cursor) : Cursor :=
  match _h : c.wrapped with
  | none => c
  | some inner => unwrap inner
termination_by c.focus.size
decreasing_by exact size_lt_of_wrapped ‹_›

/-- Whether nodes of a type evaluate to a function. -/
def isFunctionType : NodeType → Bool
  | .arrowFunction | .functionExpression | .functionToken | .generatorFunction => true
  | _ => false

/-- Whether the expression evaluates to a function. -/
def isFunctionValue (c : Cursor) : Bool :=
  c.unwrap.named && isFunctionType c.unwrap.type

/-- Whether the node in focus is the opening, the closing or the whole of an element, whose
name is a tag name. -/
def isElementTag : NodeType → Bool
  | .jsxOpeningElement | .jsxClosingElement | .jsxSelfClosingElement => true
  | _ => false

end SingleUse.Cursor
