import SingleUse.Tree.Cursor

/-!
# Categories of nodes

The analysis never looks at all node types; it distinguishes a closed list of categories.
-/

namespace SingleUse

/-- What the analysis takes a node for. -/
inductive Category where
  | program
  /-- A `let`, `const` or `var` statement. -/
  | declaration
  /-- One entry of such a statement. -/
  | declarator
  | identifier
  /-- The `else` arm; the other arm is found by its field. -/
  | branch
  | switchCase
  /-- A `for` loop of any form. -/
  | loop
  | whileLoop
  | function
  /-- A class field, whose value is computed for each instance. -/
  | field
  | block
  | catchClause
  | classLike
  /-- A declaration that does no more than introduce a name. -/
  | namedDeclaration
  | assignment
  | update
  | exportStatement
  | importStatement
  | await
  | array
  | object
  | patternElement
  | patternProperty
  | literal
  | error
  | other
deriving DecidableEq, Repr

namespace Category

/-- How a category is reported. -/
def name : Category → String
  | program => "program"
  | declaration => "declaration"
  | declarator => "declarator"
  | identifier => "identifier"
  | branch => "branch"
  | switchCase => "switch_case"
  | loop => "loop"
  | whileLoop => "while_loop"
  | function => "function"
  | field => "field"
  | block => "block"
  | catchClause => "catch"
  | classLike => "class"
  | namedDeclaration => "named_declaration"
  | assignment => "assignment"
  | update => "update"
  | exportStatement => "export"
  | importStatement => "import"
  | await => "await"
  | array => "array"
  | object => "object"
  | patternElement => "pattern_element"
  | patternProperty => "pattern_property"
  | literal => "literal"
  | error => "error"
  | other => "other"

/-- The category of the named nodes of a type. -/
def ofType : NodeType → Category
  | .program => program
  | .lexicalDeclaration | .variableDeclaration => declaration
  | .variableDeclarator => declarator
  | .identifier | .shorthandPropertyIdentifier | .shorthandPropertyIdentifierPattern
  | .propertyIdentifier => identifier
  | .elseClause => branch
  | .switchCase | .switchDefault => switchCase
  | .forStatement | .forInStatement => loop
  | .whileStatement | .doStatement => whileLoop
  | .statementBlock | .classStaticBlock => block
  | .catchClause => catchClause
  | .functionDeclaration | .functionExpression | .functionToken | .generatorFunction
  | .generatorFunctionDeclaration | .arrowFunction | .methodDefinition => function
  | .fieldDefinition | .publicFieldDefinition => field
  | .classDeclaration | .abstractClassDeclaration | .classExpression => classLike
  | .enumDeclaration | .functionSignature | .methodSignature | .abstractMethodSignature
  | .internalModule | .moduleDeclaration => namedDeclaration
  | .assignmentExpression | .augmentedAssignmentExpression => assignment
  | .updateExpression => update
  | .exportStatement => exportStatement
  | .importStatement => importStatement
  | .awaitExpression => await
  | .array => array
  | .object => object
  | .arrayPattern => patternElement
  | .objectPattern => patternProperty
  | .string | .number | .templateString | .regex | .trueLiteral | .falseLiteral | .nullLiteral
  | .undefinedLiteral => literal
  | .error => error
  | _ => other

/-- The category of a node: what is missing is an error, and a token is nothing in particular
even if it is spelt like a node type. -/
def ofLabel (label : Label) : Category :=
  if label.missing then error
  else if label.named then ofType label.type
  else other

end Category

/-- The category of the node in focus. -/
def Cursor.category (c : Cursor) : Category := Category.ofLabel c.label

end SingleUse
