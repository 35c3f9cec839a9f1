import SingleUse.Text.Blank
import SingleUse.Tree.Cursor

/-!
# Precedence

When an expression takes the place of a name, it is put in parentheses if it binds less tightly
than that place requires.  Both are levels, where a higher level binds more tightly:

* 1 sequence, 2 assignment, arrow function and `yield`, 3 conditional;
* 4 `??`, 5 `||`, 6 `&&`, 7 `|`, 8 `^`, 9 `&`, 10 equality, 11 comparison and casts, 12 shift,
  13 sum, 14 product, 15 power;
* 16 unary operators, 18 `new` without arguments and optional chains, 19 member access and
  calls, 20 everything that is closed by itself.

A few places are not a matter of levels: the start of a statement, `??` next to `||` or `&&`, a
sign after a sign, and the constructor of `new`.
-/

namespace SingleUse

namespace Precedence

/-- The level of a sequence. -/
def sequence : Nat := 1
/-- The level of an assignment. -/
def assignment : Nat := 2
/-- The level of a conditional expression. -/
def conditional : Nat := 3
/-- The level of a comparison. -/
def comparison : Nat := 11
/-- The level of a unary operator. -/
def unary : Nat := 16
/-- The level of `new` without arguments. -/
def bareNew : Nat := 18
/-- The level of a member access. -/
def member : Nat := 19
/-- The level of what is closed by itself. -/
def primary : Nat := 20

end Precedence

/-- The level of a binary operator. -/
def BinaryOp.level : BinaryOp → Nat
  | nullish => 4
  | or => 5
  | and => 6
  | bitOr => 7
  | bitXor => 8
  | bitAnd => 9
  | equal | notEqual | strictEqual | strictNotEqual => 10
  | less | greater | lessEqual | greaterEqual | instanceOf | isIn => Precedence.comparison
  | shiftLeft | shiftRight | shiftRightUnsigned => 12
  | add | subtract => 13
  | multiply | divide | remainder => 14
  | power => 15

namespace Cursor

/-- The operator of an expression, as a token. -/
def operatorToken (c : Cursor) : Option NodeType := (c.childByField .operator).map (·.type)

/-- The operator of a binary expression. -/
def binaryOp? (c : Cursor) : Option BinaryOp :=
  match c.operatorToken with
  | some (.operator op) => some op
  | _ => none

/-- The next link of a chain of member accesses, subscripts and calls. -/
def chainLink (c : Cursor) : Option Cursor :=
  match c.type with
  | .callExpression => c.childByField .function
  | .memberExpression | .subscriptExpression => c.childByField .object
  | _ => none

theorem size_lt_of_chainLink {c link : Cursor} (h : c.chainLink = some link) :
  link.focus.size < c.focus.size
  := by
  unfold chainLink at h
  split at h
  all_goals first
    | exact size_lt_of_childByField h
    | simp at h

/-- Whether nodes of a type are links of a chain. -/
def isChain : NodeType → Bool
  | .memberExpression | .subscriptExpression | .callExpression => true
  | _ => false

/-- Whether a link of the chain is optional. -/
def chainHasOptional (c : Cursor) : Bool :=
  if isChain c.type then
    if c.children.any fun child => child.type = .optionalChain then true
    else
      match _h : c.chainLink with
      | some link => chainHasOptional link
      | none => false
  else false
termination_by c.focus.size
decreasing_by exact size_lt_of_chainLink ‹_›

/-- Whether a chain of member accesses starts from a call, or is one. -/
def chainHasCall (c : Cursor) : Bool :=
  match c.type with
  | .callExpression => true
  | .memberExpression | .subscriptExpression =>
    match _h : c.childByField .object with
    | some link => chainHasCall link
    | none => false
  | _ => false
termination_by c.focus.size
decreasing_by all_goals exact size_lt_of_childByField ‹_›

/-- How tightly the expression in focus binds; what is not known binds least. -/
def precedence (c : Cursor) : Nat :=
  match c.type with
  | .identifier | .thisExpression | .superExpression | .number | .string | .templateString
  | .regex | .trueLiteral | .falseLiteral | .nullLiteral | .undefinedLiteral | .array | .object
  | .parenthesizedExpression | .functionExpression | .functionToken | .generatorFunction
  | .classExpression | .jsxElement | .jsxSelfClosingElement | .metaProperty | .importToken
  | .privatePropertyIdentifier => Precedence.primary
  | .binaryExpression => (c.binaryOp?.map (·.level)).getD 0
  | .sequenceExpression => Precedence.sequence
  | .assignmentExpression | .augmentedAssignmentExpression | .arrowFunction
  | .yieldExpression => Precedence.assignment
  | .ternaryExpression => Precedence.conditional
  | .asExpression | .satisfiesExpression => Precedence.comparison
  | .unaryExpression | .awaitExpression | .typeAssertion | .updateExpression => Precedence.unary
  | .nonNullExpression => Precedence.member
  | .newExpression =>
    if (c.childByField .arguments).isNone then Precedence.bareNew else Precedence.member
  | .memberExpression | .subscriptExpression | .callExpression =>
    if c.chainHasOptional then Precedence.bareNew else Precedence.member
  | _ => 0

/-- How tightly an operand of a binary expression has to bind.  A power groups to the right and
takes no unary operator on its left; all others group to the left. -/
def operandPrecedence (parent operand : Cursor) : Nat :=
  let level := (parent.binaryOp?.map (·.level)).getD Precedence.primary
  let onLeft := parent.isField .left operand
  if parent.binaryOp? = some .power then if onLeft then Precedence.unary + 1 else level
  else if onLeft then level else level + 1

/-- How tightly an expression has to bind to stand at the place in focus. -/
def requiredPrecedence (c : Cursor) : Nat :=
  match c.parent with
  | none => Precedence.sequence
  | some parent =>
    match parent.type with
    | .memberExpression | .subscriptExpression => Precedence.member
    | .callExpression =>
      if parent.isField .function c then Precedence.member else Precedence.assignment
    | .newExpression | .nonNullExpression => Precedence.member
    | .binaryExpression => parent.operandPrecedence c
    | .unaryExpression | .awaitExpression | .typeAssertion | .updateExpression =>
      Precedence.unary
    | .asExpression | .satisfiesExpression => Precedence.comparison + 1
    | .ternaryExpression =>
      if parent.isField .condition c then BinaryOp.nullish.level else Precedence.assignment
    | .parenthesizedExpression | .templateSubstitution | .expressionStatement
    | .returnStatement | .throwStatement | .jsxExpression | .switchCase => Precedence.sequence
    | .arguments | .array | .pair | .spreadElement | .variableDeclarator
    | .assignmentExpression | .augmentedAssignmentExpression | .arrowFunction
    | .computedPropertyName | .assignmentPattern | .exportStatement | .yieldExpression
    | .sequenceExpression => Precedence.assignment
    | _ => Precedence.member

/-- Whether an operator is `||` or `&&`. -/
def isLogical : Option BinaryOp → Bool
  | some .or | some .and => true
  | _ => false

/-- Whether the expression and the place in focus bring `??` and `||` or `&&` together, which
may not stand next to each other. -/
def mixesNullish (expression c : Cursor) : Bool :=
  c.parent.any fun parent =>
    parent.type == .binaryExpression && expression.type == .binaryExpression
      && ((parent.binaryOp? == some .nullish && isLogical expression.binaryOp?)
        || (isLogical parent.binaryOp? && expression.binaryOp? == some .nullish))

/-- Whether a text starts with the sign that stands before the place in focus. -/
def signedTwice (text : String) (c : Cursor) : Bool :=
  c.parent.any fun parent =>
    parent.type == .unaryExpression
      && match parent.binaryOp?, (Text.trimStart text).toList with
        | some .subtract, '-' :: _ => true
        | some .add, '+' :: _ => true
        | _, _ => false

/-- The beginnings that mean something else at the start of a statement. -/
def ambiguousStarts : List String := ["\x7b", "function", "class", "async function", "let ["]

/-- Whether a text would be read as a block or a declaration at the start of a statement. -/
def startsAmbiguously (text : String) : Bool :=
  let stripped := (Text.trimStart text).toList
  ambiguousStarts.any fun start => start.toList.isPrefixOf stripped

/-- Whether the place in focus is where a statement, the body of an arrow function or an exported
value starts. -/
def atStatementStart (c : Cursor) : Bool :=
  match _h : c.parent with
  | none => false
  | some parent =>
    match parent.type with
    | .expressionStatement | .exportStatement => true
    | .arrowFunction => parent.isField .body c
    | _ => if parent.start = c.start then atStatementStart parent else false
termination_by c.path.length
decreasing_by exact length_path_lt_of_parent ‹_›

/-- Whether a text has to be put in parentheses to take the place in focus.  The text is that of
`expression`, or made up if there is none, and binds as tightly as `level` says, or else as the
expression does. -/
def needsParentheses (c : Cursor) (expression : Option Cursor) (text : String)
    (level : Option Nat) : Bool :=
  let level := level.getD ((expression.map (·.precedence)).getD Precedence.primary)
  level < c.requiredPrecedence
    || (c.parentIn [.newExpression] && level == Precedence.member
      && expression.any (·.chainHasCall))
    || expression.any (·.mixesNullish c)
    || signedTwice text c
    || (startsAmbiguously text && c.atStatementStart)

end Cursor

/-- A text in parentheses. -/
def parenthesize (text : String) : String := "(" ++ text ++ ")"

end SingleUse
