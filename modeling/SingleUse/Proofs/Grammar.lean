import SingleUse.Tree.NodeType

/-!
# The grammar of expressions

The part of the ECMAScript grammar for expressions made of names, parentheses, unary and binary
operators, conditionals, assignments, member accesses, subscripts and calls.

A *phrase* is a parse tree without the steps that only lead from one nonterminal to the next.
`Derives` says which phrases a nonterminal derives, and `Phrase.tokens` which tokens a phrase is
made of; so a parse of some tokens is a phrase with these tokens that is derived.
-/

namespace SingleUse

namespace Grammar

/-! ### Tokens and phrases -/

/-- The operators that stand before their operand. -/
inductive UnaryOp where
  | delete | void | typeof | plus | minus | bitNot | not
deriving DecidableEq

/-- A token. -/
inductive Token where
  | name (text : String)
  | operator (op : BinaryOp)
  | unary (op : UnaryOp)
  /-- The sign `=`, or one that combines the old value with the new one. -/
  | assign (op : Option BinaryOp)
  | question | colon | comma | dot
  | openParen | closeParen | openBracket | closeBracket
deriving DecidableEq

/-- How a unary operator is written.  The signs are written like sum and difference. -/
def UnaryOp.token : UnaryOp → Token
  | plus => .operator .add
  | minus => .operator .subtract
  | op => .unary op

/-- A phrase: an expression, or the rest of the arguments of a call. -/
inductive Phrase where
  | name (text : String)
  | paren (inner : Phrase)
  | unary (op : UnaryOp) (operand : Phrase)
  | binary (op : BinaryOp) (left right : Phrase)
  | conditional (test consequence alternative : Phrase)
  | assign (op : Option BinaryOp) (target value : Phrase)
  | member (object : Phrase) (property : String)
  | subscript (object index : Phrase)
  | call (callee arguments : Phrase)
  -- Arguments: none, or one and what comes after it, which is nothing or set off by a comma
  | noArguments
  | argument (first rest : Phrase)
  | noMore
  | comma (rest : Phrase)
deriving DecidableEq

namespace Phrase

/-- The tokens of a phrase. -/
def tokens : Phrase → List Token
  | name text => [.name text]
  | paren inner => .openParen :: (inner.tokens ++ [.closeParen])
  | unary op operand => op.token :: operand.tokens
  | binary op left right => left.tokens ++ .operator op :: right.tokens
  | conditional test consequence alternative =>
    test.tokens ++ .question :: (consequence.tokens ++ .colon :: alternative.tokens)
  | assign op target value => target.tokens ++ .assign op :: value.tokens
  | member object property => object.tokens ++ [.dot, .name property]
  | subscript object index => object.tokens ++ .openBracket :: (index.tokens ++ [.closeBracket])
  | call callee arguments => callee.tokens ++ .openParen :: (arguments.tokens ++ [.closeParen])
  | noArguments => []
  | argument first rest => first.tokens ++ rest.tokens
  | noMore => []
  | comma rest => .comma :: rest.tokens

/-- What comes after an argument: the further ones, perhaps with a comma after the last one. -/
def moreArguments (trailing : Bool) : List Phrase → Phrase
  | [] => if trailing then comma noArguments else noMore
  | first :: rest => comma (argument first (moreArguments trailing rest))

/-- Several arguments, perhaps with a comma after the last one. -/
def ofArguments (trailing : Bool) : List Phrase → Phrase
  | [] => noArguments
  | first :: rest => argument first (moreArguments trailing rest)

end Phrase

/-! ### Nonterminals -/

/-- The nonterminals of the grammar.  Without `new` there is no difference between the expressions
that are called and those whose members are accessed. -/
inductive Nonterminal where
  | assignment | conditional | shortCircuit | coalesce | coalesceHead | or | and
  | bitOr | bitXor | bitAnd | equality | comparison | shift | sum | product | power
  | unary | leftHandSide
  | arguments | separated
deriving DecidableEq

namespace Nonterminal

/-- What a nonterminal may be replaced by. -/
def units : Nonterminal → List Nonterminal
  | assignment => [conditional]
  | conditional => [shortCircuit]
  | shortCircuit => [or, coalesce]
  | coalesceHead => [coalesce, bitOr]
  | or => [and]
  | and => [bitOr]
  | bitOr => [bitXor]
  | bitXor => [bitAnd]
  | bitAnd => [equality]
  | equality => [comparison]
  | comparison => [shift]
  | shift => [sum]
  | sum => [product]
  | product => [power]
  | power => [unary]
  | unary => [leftHandSide]
  | coalesce | leftHandSide | arguments | separated => []

end Nonterminal

/-- The production for an operator: what is derived, and from which operands. -/
structure Production where
  result : Nonterminal
  left : Nonterminal
  right : Nonterminal

/-- The production for an operator.  All but the power group to the left; `??` does not stand next
to `||` and `&&`, and the power takes no unary operator on its left. -/
def production : BinaryOp → Production
  | .nullish => ⟨.coalesce, .coalesceHead, .bitOr⟩
  | .or => ⟨.or, .or, .and⟩
  | .and => ⟨.and, .and, .bitOr⟩
  | .bitOr => ⟨.bitOr, .bitOr, .bitXor⟩
  | .bitXor => ⟨.bitXor, .bitXor, .bitAnd⟩
  | .bitAnd => ⟨.bitAnd, .bitAnd, .equality⟩
  | .equal | .notEqual | .strictEqual | .strictNotEqual => ⟨.equality, .equality, .comparison⟩
  | .less | .greater | .lessEqual | .greaterEqual | .instanceOf | .isIn =>
    ⟨.comparison, .comparison, .shift⟩
  | .shiftLeft | .shiftRight | .shiftRightUnsigned => ⟨.shift, .shift, .sum⟩
  | .add | .subtract => ⟨.sum, .sum, .product⟩
  | .multiply | .divide | .remainder => ⟨.product, .product, .power⟩
  | .power => ⟨.power, .leftHandSide, .power⟩

/-- The operators of assignments. -/
def assignmentOps : List (Option BinaryOp) :=
  [none, some .multiply, some .divide, some .remainder, some .add, some .subtract,
    some .shiftLeft, some .shiftRight, some .shiftRightUnsigned, some .bitAnd, some .bitXor,
    some .bitOr, some .power, some .and, some .or, some .nullish]

/-! ### Derivations -/

/-- The phrases that a nonterminal derives. -/
inductive Derives : Nonterminal → Phrase → Prop where
  | unit {n m : Nonterminal} {e : Phrase} (hunit : m ∈ n.units) (h : Derives m e) : Derives n e
  | name (text : String) : Derives .leftHandSide (.name text)
  | paren {inner : Phrase} (h : Derives .assignment inner) : Derives .leftHandSide (.paren inner)
  | member {object : Phrase} (property : String) (h : Derives .leftHandSide object) :
    Derives .leftHandSide (.member object property)
  | subscript {object index : Phrase} (hobject : Derives .leftHandSide object)
      (hindex : Derives .assignment index) :
    Derives .leftHandSide (.subscript object index)
  | call {callee arguments : Phrase} (hcallee : Derives .leftHandSide callee)
      (harguments : Derives .arguments arguments) :
    Derives .leftHandSide (.call callee arguments)
  | unary (op : UnaryOp) {operand : Phrase} (h : Derives .unary operand) :
    Derives .unary (.unary op operand)
  | binary {n : Nonterminal} {op : BinaryOp} {left right : Phrase}
      (hresult : (production op).result = n) (hleft : Derives (production op).left left)
      (hright : Derives (production op).right right) :
    Derives n (.binary op left right)
  | conditional {test consequence alternative : Phrase} (htest : Derives .shortCircuit test)
      (hconsequence : Derives .assignment consequence)
      (halternative : Derives .assignment alternative) :
    Derives .conditional (.conditional test consequence alternative)
  | assign {op : Option BinaryOp} (hop : op ∈ assignmentOps) {target value : Phrase}
      (htarget : Derives .leftHandSide target) (hvalue : Derives .assignment value) :
    Derives .assignment (.assign op target value)
  | noArguments : Derives .arguments .noArguments
  | argument {first rest : Phrase} (hfirst : Derives .assignment first)
      (hrest : Derives .separated rest) :
    Derives .arguments (.argument first rest)
  | noMore : Derives .separated .noMore
  | comma {rest : Phrase} (h : Derives .arguments rest) : Derives .separated (.comma rest)

/-- Whether a phrase is a parse of some tokens as an expression. -/
structure Parse (ts : List Token) (e : Phrase) : Prop where
  derived : Derives .assignment e
  tokens : e.tokens = ts

end Grammar

end SingleUse
