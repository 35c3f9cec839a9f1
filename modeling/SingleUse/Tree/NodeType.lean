/-!
# Node types

The vocabulary of the syntax trees: the operators of binary expressions, the types of nodes
and the fields that a child may fill in its parent.  The types and fields that no rule
mentions are kept by name in `other`.
-/

namespace SingleUse

/-- The operators that stand between two operands. -/
inductive BinaryOp where
  | nullish | or | and | bitOr | bitXor | bitAnd
  | equal | notEqual | strictEqual | strictNotEqual
  | less | greater | lessEqual | greaterEqual | instanceOf | isIn
  | shiftLeft | shiftRight | shiftRightUnsigned
  | add | subtract | multiply | divide | remainder | power
deriving DecidableEq, Repr

namespace BinaryOp

/-- How an operator is written. -/
def name : BinaryOp → String
  | nullish => "??" | or => "||" | and => "&&"
  | bitOr => "|" | bitXor => "^" | bitAnd => "&"
  | equal => "==" | notEqual => "!=" | strictEqual => "===" | strictNotEqual => "!=="
  | less => "<" | greater => ">" | lessEqual => "<=" | greaterEqual => ">="
  | instanceOf => "instanceof" | isIn => "in"
  | shiftLeft => "<<" | shiftRight => ">>" | shiftRightUnsigned => ">>>"
  | add => "+" | subtract => "-"
  | multiply => "*" | divide => "/" | remainder => "%" | power => "**"

/-- Every operator once. -/
def all : List BinaryOp :=
  [nullish, or, and, bitOr, bitXor, bitAnd, equal, notEqual, strictEqual, strictNotEqual,
    less, greater, lessEqual, greaterEqual, instanceOf, isIn, shiftLeft, shiftRight,
    shiftRightUnsigned, add, subtract, multiply, divide, remainder, power]

end BinaryOp

/-- The type of a syntax node. -/
inductive NodeType where
  -- Statements and declarations
  | program | lexicalDeclaration | variableDeclaration | variableDeclarator
  | functionDeclaration | generatorFunctionDeclaration | classDeclaration
  | abstractClassDeclaration | enumDeclaration | functionSignature | methodSignature
  | abstractMethodSignature | internalModule | moduleDeclaration | ambientDeclaration
  | typeAliasDeclaration | interfaceDeclaration
  | ifStatement | elseClause | switchCase | switchDefault | forStatement | forInStatement
  | whileStatement | doStatement | labeledStatement | withStatement | statementBlock
  | classStaticBlock | catchClause | expressionStatement | returnStatement | throwStatement
  | exportStatement | exportClause | exportSpecifier
  | importStatement | importClause | importSpecifier | namespaceImport | importRequireClause
  -- Functions and class members
  | functionExpression | functionToken | generatorFunction | arrowFunction
  | methodDefinition | fieldDefinition | publicFieldDefinition | classExpression
  | formalParameters | requiredParameter | optionalParameter
  -- Names
  | identifier | shorthandPropertyIdentifier | shorthandPropertyIdentifierPattern
  | propertyIdentifier | privatePropertyIdentifier | nestedIdentifier
  -- Patterns
  | arrayPattern | objectPattern | pairPattern | assignmentPattern | objectAssignmentPattern
  | restPattern
  -- Expressions
  | assignmentExpression | augmentedAssignmentExpression | updateExpression
  | awaitExpression | yieldExpression | sequenceExpression | ternaryExpression
  | binaryExpression | unaryExpression | newExpression | callExpression
  | memberExpression | subscriptExpression | parenthesizedExpression | asExpression
  | satisfiesExpression | nonNullExpression | typeAssertion
  | array | object | pair | spreadElement | computedPropertyName | arguments
  | string | number | templateString | templateSubstitution | regex
  | trueLiteral | falseLiteral | nullLiteral | undefinedLiteral | thisExpression
  | superExpression | metaProperty | importToken
  | jsxElement | jsxOpeningElement | jsxClosingElement | jsxSelfClosingElement | jsxExpression
  -- Type positions
  | typeQuery | annotationOfType | annotationOpting | annotationOmitting
  | annotationAdding | annotationAsserting | annotationOfPredicate | typeArguments
  | typeParameters | implementsClause | extendsTypeClause | indexSignature | genericType
  | nestedTypeIdentifier
  -- Tokens and the rest
  | comment | error | comma | var | delete | optionalChain
  | operator (op : BinaryOp)
  | other (name : String)
deriving DecidableEq

namespace NodeType

/-- How a grammar calls a type. -/
def name : NodeType → String
  | program => "program"
  | lexicalDeclaration => "lexical_declaration"
  | variableDeclaration => "variable_declaration"
  | variableDeclarator => "variable_declarator"
  | functionDeclaration => "function_declaration"
  | generatorFunctionDeclaration => "generator_function_declaration"
  | classDeclaration => "class_declaration"
  | abstractClassDeclaration => "abstract_class_declaration"
  | enumDeclaration => "enum_declaration"
  | functionSignature => "function_signature"
  | methodSignature => "method_signature"
  | abstractMethodSignature => "abstract_method_signature"
  | internalModule => "internal_module"
  | moduleDeclaration => "module"
  | ambientDeclaration => "ambient_declaration"
  | typeAliasDeclaration => "type_alias_declaration"
  | interfaceDeclaration => "interface_declaration"
  | ifStatement => "if_statement"
  | elseClause => "else_clause"
  | switchCase => "switch_case"
  | switchDefault => "switch_default"
  | forStatement => "for_statement"
  | forInStatement => "for_in_statement"
  | whileStatement => "while_statement"
  | doStatement => "do_statement"
  | labeledStatement => "labeled_statement"
  | withStatement => "with_statement"
  | statementBlock => "statement_block"
  | classStaticBlock => "class_static_block"
  | catchClause => "catch_clause"
  | expressionStatement => "expression_statement"
  | returnStatement => "return_statement"
  | throwStatement => "throw_statement"
  | exportStatement => "export_statement"
  | exportClause => "export_clause"
  | exportSpecifier => "export_specifier"
  | importStatement => "import_statement"
  | importClause => "import_clause"
  | importSpecifier => "import_specifier"
  | namespaceImport => "namespace_import"
  | importRequireClause => "import_require_clause"
  | functionExpression => "function_expression"
  | functionToken => "function"
  | generatorFunction => "generator_function"
  | arrowFunction => "arrow_function"
  | methodDefinition => "method_definition"
  | fieldDefinition => "field_definition"
  | publicFieldDefinition => "public_field_definition"
  | classExpression => "class"
  | formalParameters => "formal_parameters"
  | requiredParameter => "required_parameter"
  | optionalParameter => "optional_parameter"
  | identifier => "identifier"
  | shorthandPropertyIdentifier => "shorthand_property_identifier"
  | shorthandPropertyIdentifierPattern => "shorthand_property_identifier_pattern"
  | propertyIdentifier => "property_identifier"
  | privatePropertyIdentifier => "private_property_identifier"
  | nestedIdentifier => "nested_identifier"
  | arrayPattern => "array_pattern"
  | objectPattern => "object_pattern"
  | pairPattern => "pair_pattern"
  | assignmentPattern => "assignment_pattern"
  | objectAssignmentPattern => "object_assignment_pattern"
  | restPattern => "rest_pattern"
  | assignmentExpression => "assignment_expression"
  | augmentedAssignmentExpression => "augmented_assignment_expression"
  | updateExpression => "update_expression"
  | awaitExpression => "await_expression"
  | yieldExpression => "yield_expression"
  | sequenceExpression => "sequence_expression"
  | ternaryExpression => "ternary_expression"
  | binaryExpression => "binary_expression"
  | unaryExpression => "unary_expression"
  | newExpression => "new_expression"
  | callExpression => "call_expression"
  | memberExpression => "member_expression"
  | subscriptExpression => "subscript_expression"
  | parenthesizedExpression => "parenthesized_expression"
  | asExpression => "as_expression"
  | satisfiesExpression => "satisfies_expression"
  | nonNullExpression => "non_null_expression"
  | typeAssertion => "type_assertion"
  | array => "array"
  | object => "object"
  | pair => "pair"
  | spreadElement => "spread_element"
  | computedPropertyName => "computed_property_name"
  | arguments => "arguments"
  | string => "string"
  | number => "number"
  | templateString => "template_string"
  | templateSubstitution => "template_substitution"
  | regex => "regex"
  | trueLiteral => "true"
  | falseLiteral => "false"
  | nullLiteral => "null"
  | undefinedLiteral => "undefined"
  | thisExpression => "this"
  | superExpression => "super"
  | metaProperty => "meta_property"
  | importToken => "import"
  | jsxElement => "jsx_element"
  | jsxOpeningElement => "jsx_opening_element"
  | jsxClosingElement => "jsx_closing_element"
  | jsxSelfClosingElement => "jsx_self_closing_element"
  | jsxExpression => "jsx_expression"
  | typeQuery => "type_query"
  | annotationOfType => "type_annotation"
  | annotationOpting => "opting_type_annotation"
  | annotationOmitting => "omitting_type_annotation"
  | annotationAdding => "adding_type_annotation"
  | annotationAsserting => "asserts_annotation"
  | annotationOfPredicate => "type_predicate_annotation"
  | typeArguments => "type_arguments"
  | typeParameters => "type_parameters"
  | implementsClause => "implements_clause"
  | extendsTypeClause => "extends_type_clause"
  | indexSignature => "index_signature"
  | genericType => "generic_type"
  | nestedTypeIdentifier => "nested_type_identifier"
  | comment => "comment"
  | error => "ERROR"
  | comma => ","
  | var => "var"
  | delete => "delete"
  | optionalChain => "optional_chain"
  | operator op => op.name
  | other name => name

/-- Every type that has a constructor of its own. -/
def known : List NodeType :=
  [program, lexicalDeclaration, variableDeclaration, variableDeclarator, functionDeclaration,
    generatorFunctionDeclaration, classDeclaration, abstractClassDeclaration, enumDeclaration,
    functionSignature, methodSignature, abstractMethodSignature, internalModule, moduleDeclaration,
    ambientDeclaration, typeAliasDeclaration, interfaceDeclaration, ifStatement, elseClause,
    switchCase, switchDefault, forStatement, forInStatement, whileStatement, doStatement,
    labeledStatement, withStatement, statementBlock, classStaticBlock, catchClause,
    expressionStatement, returnStatement, throwStatement, exportStatement, exportClause,
    exportSpecifier, importStatement, importClause, importSpecifier, namespaceImport,
    importRequireClause, functionExpression, functionToken, generatorFunction, arrowFunction,
    methodDefinition, fieldDefinition, publicFieldDefinition, classExpression,
    formalParameters, requiredParameter, optionalParameter, identifier,
    shorthandPropertyIdentifier, shorthandPropertyIdentifierPattern, propertyIdentifier,
    privatePropertyIdentifier, nestedIdentifier, arrayPattern, objectPattern, pairPattern,
    assignmentPattern, objectAssignmentPattern, restPattern, assignmentExpression,
    augmentedAssignmentExpression, updateExpression, awaitExpression, yieldExpression,
    sequenceExpression, ternaryExpression, binaryExpression, unaryExpression, newExpression,
    callExpression, memberExpression, subscriptExpression, parenthesizedExpression,
    asExpression, satisfiesExpression, nonNullExpression, typeAssertion, array, object, pair,
    spreadElement, computedPropertyName, arguments, string, number, templateString,
    templateSubstitution, regex, trueLiteral, falseLiteral, nullLiteral, undefinedLiteral,
    thisExpression, superExpression, metaProperty,
    importToken, jsxElement, jsxOpeningElement, jsxClosingElement, jsxSelfClosingElement,
    jsxExpression, typeQuery, annotationOfType, annotationOpting, annotationOmitting,
    annotationAdding, annotationAsserting, annotationOfPredicate, typeArguments,
    typeParameters, implementsClause, extendsTypeClause, indexSignature, genericType,
    nestedTypeIdentifier, comment, error, comma, var, delete, optionalChain]
  ++ BinaryOp.all.map operator

/-- The type that a grammar calls `name`. -/
def ofName (name : String) : NodeType :=
  (known.find? fun type => type.name == name).getD (other name)

/-- A type read from its name has that name. -/
@[simp]
theorem name_ofName (name : String) :
  (ofName name).name = name
  := by
  unfold ofName
  cases h : known.find? fun type => type.name == name with
  | none => rfl
  | some type => simpa using List.find?_some h

end NodeType

/-- The part that a child plays in its parent. -/
inductive Field where
  | name | value | key | left | right | pattern | parameters | parameter | kind | otherName
  | source | operator | argument | arguments | function | object | condition | body
  | consequence
  | other (name : String)
deriving DecidableEq

namespace Field

/-- The field that a grammar calls `text`. -/
def ofName (text : String) : Field :=
  match text with
  | "name" => name
  | "value" => value
  | "key" => key
  | "left" => left
  | "right" => right
  | "pattern" => pattern
  | "parameters" => parameters
  | "parameter" => parameter
  | "kind" => kind
  | "alias" => otherName
  | "source" => source
  | "operator" => operator
  | "argument" => argument
  | "arguments" => arguments
  | "function" => function
  | "object" => object
  | "condition" => condition
  | "body" => body
  | "consequence" => consequence
  | text => other text

end Field

end SingleUse
