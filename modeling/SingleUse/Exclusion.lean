/-!
# Exclusions

The reasons why a declared name is not reported although it is read once.
-/

namespace SingleUse

/-- Why a binding is not reported. -/
inductive Exclusion where
  -- Found when the name is declared
  | functionValue | arrayLiteral | objectLiteral | initializerLength | patternShape | shadowOnly
  -- Found when its only read is known
  | ignored | callback | loop | await | exported | objectDestructuring | reassigned
  | redeclared | malformed | fallbackRead | readBeforeDeclaration | outsideDeclaringBlock
  | whileLoop
deriving DecidableEq, Repr

namespace Exclusion

/-- How an exclusion is reported. -/
def name : Exclusion → String
  | functionValue => "function-value"
  | arrayLiteral => "array-literal"
  | objectLiteral => "object-literal"
  | initializerLength => "initializer-length"
  | patternShape => "pattern-shape"
  | shadowOnly => "shadow-only"
  | ignored => "ignored"
  | callback => "callback"
  | loop => "loop"
  | await => "await"
  | exported => "exported"
  | objectDestructuring => "object-destructuring"
  | reassigned => "reassigned"
  | redeclared => "redeclared"
  | malformed => "malformed"
  | fallbackRead => "fallback-read"
  | readBeforeDeclaration => "read-before-declaration"
  | outsideDeclaringBlock => "outside-declaring-block"
  | whileLoop => "while-loop"

/-- Every exclusion once. -/
def all : List Exclusion :=
  [functionValue, arrayLiteral, objectLiteral, initializerLength, patternShape, shadowOnly,
    ignored, callback, loop, await, exported, objectDestructuring, reassigned, redeclared,
    malformed, fallbackRead, readBeforeDeclaration, outsideDeclaringBlock, whileLoop]

/-- The exclusion that is reported by a name. -/
def ofName? (name : String) : Option Exclusion :=
  all.find? fun exclusion => exclusion.name == name

end Exclusion

end SingleUse
