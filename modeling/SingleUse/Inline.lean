import SingleUse.Edit
import SingleUse.Error
import SingleUse.Precedence
import SingleUse.Reference
import SingleUse.Tree.Expression

/-!
# Inlining

The fix for a reported binding removes its declaration and puts the initializer in the place of
the read.  `Binding.inline` makes both edits or refuses, with the reason.
-/

namespace SingleUse

/-! ### Removing a statement -/

/-- The siblings to the right, nearest first. -/
def Cursor.following (c : Cursor) : List Label :=
  match c.path with
  | [] => []
  | crumb :: _ => crumb.after.map (·.label)

/-- The siblings to the left, nearest first. -/
def Cursor.preceding (c : Cursor) : List Label :=
  match c.path with
  | [] => []
  | crumb :: _ => crumb.before.map (·.label)

/-- Whether a statement whose body is a single statement; the body cannot simply vanish. -/
def hasSingleBody : NodeType → Bool
  | .ifStatement | .elseClause | .forStatement | .forInStatement | .whileStatement
  | .doStatement | .labeledStatement | .withStatement => true
  | _ => false

/-- The bytes `(`, `[`, backquote, `+`, `-` and `/`, with which a line continues an unterminated
statement before it. -/
def continuationBytes : Bytes := [0x28, 0x5B, 0x60, 0x2B, 0x2D, 0x2F]

/-- Whether a statement may end in a brace and still be continued. -/
def isOpenEnded : NodeType → Bool
  | .expressionStatement | .lexicalDeclaration | .variableDeclaration | .exportStatement
  | .typeAliasDeclaration => true
  | _ => false

/-- Whether the first sibling that is no comment starts like the continuation of a statement. -/
def continuesBefore (source : Bytes) (following : List Label) : Bool :=
  match following.find? fun label => label.type ≠ .comment with
  | some label => label.named && source[label.start]?.any continuationBytes.contains
  | none => false

/-- Whether the first sibling that is no comment ends without a semicolon and can be
continued. -/
def isLeftOpen (source : Bytes) (preceding : List Label) : Bool :=
  match preceding.find? fun label => label.type ≠ .comment with
  | some label =>
    let text := (Text.trimEnd (Utf8.decodeLossy (source.slice label.start label.stop))).toList
    label.named && text.getLast? ≠ some ';'
      && !(text.getLast? = some '\x7d' && !isOpenEnded label.type)
  | none => false

/-- Whether the statements around one would become a single expression without it. -/
def Cursor.joinsNeighbours (c : Cursor) (source : Bytes) : Bool :=
  continuesBefore source c.following && isLeftOpen source c.preceding

/-- The offset at which the line of an offset starts. -/
def lineStart (source : Bytes) (offset : Nat) : Nat :=
  let before := source.take offset
  before.length - trailing before

/-- The offset of the first line end at or after an offset, or the end of the source. -/
def lineEnd (source : Bytes) (offset : Nat) : Nat :=
  match (source.drop offset).findIdx? (· == lineFeed) with
  | some index => offset + index
  | none => source.length

/-- The removal of a span of bytes that is a statement.  If nothing else stands on its lines, they
vanish, and otherwise the blanks after it do. -/
def removeLines (source : Bytes) (span : Span) (replacement : String) : Edit :=
  let first := lineStart source span.start
  let last := lineEnd source span.stop
  if (source.slice first span.start).all isBlankByte
      && (source.slice span.stop last).all isBlankByte then
    ⟨Span.mk first (min (last + 1) source.length), replacement⟩
  else
    let blanks := (source.slice span.stop last).takeWhile fun byte => byte == 0x20 || byte == 0x09
    ⟨Span.mk span.start (span.stop + blanks.length), replacement⟩

/-- The removal of a statement.  A semicolon takes its place where a statement has to stand, and
where the statements around it would become one. -/
def Cursor.removeStatement (c : Cursor) (source : Bytes) : Edit :=
  if c.parent.any fun parent => hasSingleBody parent.type then ⟨c.span, ";"⟩
  else removeLines source c.span (if c.joinsNeighbours source then ";" else "")

/-! ### Removing a declarator -/

/-- The removal of a declarator: of the whole statement if it is the only one there, else from
its start to the next declarator, or from the end of the one before it. -/
def Cursor.removeDeclarator (declarator statement : Cursor) (source : Bytes) : Option Edit :=
  let declarators := statement.namedChildren.filter fun child => child.type = .variableDeclarator
  if declarators.length = 1 then some (statement.removeStatement source)
  else
    match declarators.findIdx? (·.sameNode declarator) with
    | none => none
    | some 0 => declarators[1]?.map fun next => ⟨Span.mk declarator.start next.start, ""⟩
    | some (index + 1) =>
      declarators[index]?.map fun previous => ⟨Span.mk previous.stop declarator.stop, ""⟩

/-! ### Substituting the read -/

/-- The access to the property or the element that a pattern binds. -/
def Binding.patternAccess (b : Binding) (source : Bytes) (initializer : Cursor) :
    Except Refusal String :=
  let text := initializer.text source
  let base := if initializer.precedence < Precedence.member then parenthesize text else text
  if b.shape = .arrayElement then
    .ok (base ++ "[" ++ (b.patternIndex.map toString).getD "None" ++ "]")
  else
    match b.patternKey with
    | none => .error .noKey
    | some key =>
      let keyText := key.text source
      match key.type with
      | .propertyIdentifier | .shorthandPropertyIdentifierPattern => .ok (base ++ "." ++ keyText)
      | .string | .number => .ok (base ++ "[" ++ keyText ++ "]")
      | .computedPropertyName => .ok (base ++ keyText)
      | _ => .error (.unsupportedKey keyText)

/-- What takes the place of the read: a text, the expression it is the text of, and how tightly
it binds if that is not up to the expression. -/
structure Replacement where
  text : String
  expression : Option Cursor
  level : Option Nat

/-- What takes the place of the read. -/
def Binding.replacement (b : Binding) (source : Bytes) : Except Refusal Replacement :=
  match b.shape, b.initializer with
  | .simple, some initializer => .ok ⟨initializer.text source, some initializer, none⟩
  | .simple, none => .ok ⟨"undefined", none, none⟩
  | _, some initializer => do
    return ⟨← b.patternAccess source initializer, none, some Precedence.member⟩
  | _, none => .error .noValue

/-- The substitution of the read.  In `{ name }` the key is written out. -/
def Binding.substitution (b : Binding) (read : Occurrence) (source : Bytes) :
    Except Refusal Edit := do
  let r ← b.replacement source
  let text :=
    if read.role = .objectPropertyShorthand then
      let level := r.level.getD ((r.expression.map (·.precedence)).getD Precedence.primary)
      b.name ++ ": " ++ if level < Precedence.assignment then parenthesize r.text else r.text
    else if read.node.needsParentheses r.expression r.text r.level then parenthesize r.text
    else r.text
  return ⟨read.span, text⟩

/-! ### The fix -/

/-- Whether the place in focus is part of a tag name. -/
def Cursor.inElementName (c : Cursor) : Bool :=
  match _h : c.parent with
  | none => false
  | some parent =>
    match parent.type with
    | .memberExpression | .nestedIdentifier => inElementName parent
    | type => isElementTag type
termination_by c.path.length
decreasing_by all_goals exact length_path_lt_of_parent ‹_›

/-- Why a binding is not inlined, apart from its pattern. -/
def Binding.refusal? (b : Binding) (read : Occurrence) : Option Refusal :=
  let container := b.statement.bind (·.parent)
  if b.origin ≠ .declarator then some (.notVariable b.origin.name)
  else if b.exported then some .exported
  else if !b.statement.any fun statement =>
      [.lexicalDeclaration, .variableDeclaration].contains statement.type then
    some .notVariableStatement
  else if container.any fun c => [.forStatement, .forInStatement].contains c.type then
    some .loopHeader
  else if container.any fun c => c.type = .ambientDeclaration then some .ambient
  else if read.role = .assignmentTarget then some .written
  else if read.inType then some .inType
  else if read.node.parentIn [.exportSpecifier] then some .exportSpecifier
  else if read.node.parent.any fun parent =>
      parent.type = .unaryExpression && parent.operatorToken = some .delete then
    some .deleted
  else if read.node.inElementName then some .elementName
  else if b.shape ≠ .simple && b.initializer.isNone then some .noValue
  else none

/-- The fix that inlines a binding. -/
def Binding.inline (b : Binding) (source : Bytes) : Except Refusal Fix := do
  match b.lastRead, b.declaration, b.statement with
  | none, _, _ => throw .noRead
  | some read, declaration, statement =>
    if let some refusal := b.refusal? read then throw refusal
    match declaration, statement with
    | some declarator, some statement =>
      match declarator.removeDeclarator statement source with
      | none => throw .notVariableStatement
      | some removal =>
        let substitution ← b.substitution read source
        if removal.range.overlaps substitution.range then throw .insideDeclaration
        return ⟨b.name, [removal, substitution]⟩
    | _, _ => throw .notVariableStatement

end SingleUse
