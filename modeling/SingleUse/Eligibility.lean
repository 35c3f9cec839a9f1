import SingleUse.Analysis

/-!
# Eligibility

A binding that is read once is reported unless one of the exclusions applies.  They are tried in
a fixed order, the ignored names first, and the first one that applies is given as the reason.
-/

namespace SingleUse

namespace Binding

/-- Whether the initializer waits for a promise. -/
def isAwaited (b : Binding) : Bool :=
  b.initializer.any fun initializer => initializer.unwrap.category = .await

/-- Whether the declaration or the read runs in a `for` loop. -/
def inForLoop (b : Binding) (read : Occurrence) : Bool :=
  (b.loops ++ read.loops).any fun loop => loop.kind = .counted

/-- Whether the read starts before the declaration ends. -/
def isReadEarly (b : Binding) (read : Occurrence) : Bool :=
  b.declaration.any fun declaration => read.node.start < declaration.stop

/-- Whether the read lies outside the block that declares the name. -/
def isReadOutside (b : Binding) (read : Occurrence) (scopes : ScopeTree) : Bool :=
  b.lexical.isSome && !scopes.isAncestor b.lexical read.scope

/-- Whether the read runs in a `while` loop that the declaration does not run in. -/
def inOwnWhileLoop (b : Binding) (read : Occurrence) : Bool :=
  read.loops.any fun loop => loop.kind = .conditional && !b.loops.contains loop

/-- The first exclusion that applies to a binding with a single read. -/
def exclusion? (b : Binding) (read : Occurrence) (options : RuleOptions) (scopes : ScopeTree) :
    Option Exclusion :=
  if options.ignores b.name then some .ignored
  else if b.rejection.isSome then b.rejection
  else if options.isOn .allowInsideCallback && read.function ≠ b.function then some .callback
  else if b.inForLoop read then some .loop
  else if b.isAwaited then some .await
  else if b.exported && options.isOn .ignoreExportedVariables then some .exported
  else if b.shape = .objectProperty && options.isOn .ignoreObjectDestructuring then
    some .objectDestructuring
  else if b.reassigned then some .reassigned
  else if b.redeclared then some .redeclared
  else if b.malformed then some .malformed
  else if b.fallbackReads ≠ 0 then some .fallbackRead
  else if b.isReadEarly read then some .readBeforeDeclaration
  else if b.isReadOutside read scopes then some .outsideDeclaringBlock
  else if b.inOwnWhileLoop read then some .whileLoop
  else none

/-- Why a binding is not reported, if it is not.  It has to be read exactly once. -/
def check (b : Binding) (options : RuleOptions) (scopes : ScopeTree) :
    Except Error (Option Exclusion) :=
  match b.lastRead with
  | some read =>
    if b.useCount = 1 then .ok (b.exclusion? read options scopes)
    else .error (.notReadOnce b.name b.useCount)
  | none => .error (.notReadOnce b.name b.useCount)

end Binding

/-- The bindings that are reported, in the order of their declaration. -/
def Registry.reportable (r : Registry) (options : RuleOptions) (scopes : ScopeTree) :
    Except Error (List Binding) :=
  r.singleUse.filterM fun b => (b.check options scopes).map (·.isNone)

end SingleUse
