import SingleUse.Binding
import SingleUse.Options
import SingleUse.Tree.Expression

/-!
# Screening

A declared name is screened at once: whatever is no variable, and whatever is initialised by a
function, an array or object literal or a long expression that the options exempt, can never
be reported.
-/

namespace SingleUse

/-- Whether some part is longer than a limit; the parts are measured one after the other. -/
def anyLonger (limit : Value) : List String → Except Error Bool
  | [] => .ok false
  | part :: rest => do
    if ← RuleOptions.exceeds part.length limit then return true
    anyLonger limit rest

/-- Whether an object literal is exempt. -/
def RuleOptions.exemptsObject (options : RuleOptions) (source : Bytes) (object : Cursor) :
    Except Error Bool := do
  if options.isOn .ignoreObjectVariables then return true
  let properties := object.significantChildren
  if ← exceeds properties.length options.maxObjectProperties then return true
  anyLonger options.maxPropertyLength (properties.map (·.text source))

/-- Why an initializer can never be inlined. -/
def RuleOptions.screenInitializer (options : RuleOptions) (source : Bytes)
    (initializer : Cursor) : Except Error (Option Exclusion) := do
  if options.isOn .ignoreFunctionVariables && initializer.isFunctionValue then
    return some .functionValue
  let inner := initializer.unwrap
  match inner.category with
  | .array =>
    return if ← options.exemptsArray inner.significantChildren.length then some .arrayLiteral
      else none
  | .object =>
    return if ← options.exemptsObject source inner then some .objectLiteral else none
  | _ =>
    return if ← exceeds (initializer.text source).length options.maxInitializerLength then
      some .initializerLength else none

/-- Why a freshly declared binding can never be reported. -/
def Binding.screen (b : Binding) (options : RuleOptions) (source : Bytes) :
    Except Error (Option Exclusion) :=
  if b.origin ≠ .declarator then .ok (some .shadowOnly)
  else if b.rejection.isSome then .ok b.rejection
  else
    match b.initializer with
    | none => .ok none
    | some initializer => options.screenInitializer source initializer

end SingleUse
