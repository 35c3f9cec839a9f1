import SingleUse.Error
import SingleUse.Value

/-!
# Rule options

The options of the rule.  A settings file may give an option any value, so the options hold
values of any kind; `RuleOptions.problem?` says whether they have the kinds they should have.
Each option is known by the key that settings files use and by an attribute name, and one
option has an older key besides.
-/

namespace SingleUse

/-- The options by name. -/
inductive RuleOption where
  | ignoredVariables
  | ignoreFunctionVariables
  | ignoreArrayVariables
  | ignoreObjectVariables
  | ignoreObjectDestructuring
  | ignoreExportedVariables
  | allowInsideCallback
  | maxInitializerLength
  | maxObjectProperties
  | maxPropertyLength
deriving DecidableEq, Repr

namespace RuleOption

/-- Every option, in the order in which they are shown. -/
def all : List RuleOption :=
  [ignoredVariables, ignoreFunctionVariables, ignoreArrayVariables, ignoreObjectVariables,
    ignoreObjectDestructuring, ignoreExportedVariables, allowInsideCallback,
    maxInitializerLength, maxObjectProperties, maxPropertyLength]

/-- The key of an option in settings files. -/
def key : RuleOption → String
  | ignoredVariables => "ignoredVariables"
  | ignoreFunctionVariables => "ignoreFunctionVariables"
  | ignoreArrayVariables => "ignoreArrayVariables"
  | ignoreObjectVariables => "ignoreObjectVariables"
  | ignoreObjectDestructuring => "ignoreObjectDestructuring"
  | ignoreExportedVariables => "ignoreExportedVariables"
  | allowInsideCallback => "allowInsideCallback"
  | maxInitializerLength => "maxInitializerLength"
  | maxObjectProperties => "maxObjectProperties"
  | maxPropertyLength => "maxPropertyLength"

/-- The attribute name of an option. -/
def attributeName : RuleOption → String
  | ignoredVariables => "ignored_variables"
  | ignoreFunctionVariables => "ignore_function_variables"
  | ignoreArrayVariables => "ignore_array_variables"
  | ignoreObjectVariables => "ignore_object_variables"
  | ignoreObjectDestructuring => "ignore_object_destructuring"
  | ignoreExportedVariables => "ignore_exported_variables"
  | allowInsideCallback => "allow_inside_callback"
  | maxInitializerLength => "max_initializer_length"
  | maxObjectProperties => "max_object_properties"
  | maxPropertyLength => "max_property_length"

/-- The older key of `allowInsideCallback`. -/
def legacyKey : String := "allowInsideFunctions"

/-- The option under a key, old or new. -/
def ofKey? (name : String) : Option RuleOption :=
  (all.find? fun option => option.key = name).or
    (if name = legacyKey then some allowInsideCallback else none)

/-- The option under a key or an attribute name. -/
def ofName? (name : String) : Option RuleOption :=
  (ofKey? name).or (all.find? fun option => option.attributeName = name)

/-- All keys, as they are listed in messages. -/
def keyList : String := ", ".intercalate (all.map key)

/-- The options that are on or off. -/
def switches : List RuleOption :=
  [ignoreFunctionVariables, ignoreObjectVariables, ignoreObjectDestructuring,
    ignoreExportedVariables, allowInsideCallback]

/-- The options that are numbers. -/
def limits : List RuleOption := [maxInitializerLength, maxObjectProperties, maxPropertyLength]

end RuleOption

/-- The options in force. -/
structure RuleOptions where
  /-- Names that are never reported. -/
  ignoredVariables : List Value := []
  /-- Exempts functions. -/
  ignoreFunctionVariables : Value := .bool true
  /-- Exempts array literals: all of them, or those with more than so many elements. -/
  ignoreArrayVariables : Value := .bool false
  /-- Exempts object literals. -/
  ignoreObjectVariables : Value := .bool false
  /-- Exempts names bound by object patterns. -/
  ignoreObjectDestructuring : Value := .bool false
  /-- Exempts exported names. -/
  ignoreExportedVariables : Value := .bool true
  /-- Exempts reads in another function than the declaration. -/
  allowInsideCallback : Value := .bool true
  /-- The longest initializer that is reported, in characters. -/
  maxInitializerLength : Value := .int 80
  /-- The most properties of an object literal that is reported. -/
  maxObjectProperties : Value := .int 3
  /-- The longest property of an object literal that is reported. -/
  maxPropertyLength : Value := .int 40

namespace RuleOptions

/-- The value of an option; the ignored names as a list in no particular order. -/
def get (options : RuleOptions) : RuleOption → Value
  | .ignoredVariables => .list options.ignoredVariables
  | .ignoreFunctionVariables => options.ignoreFunctionVariables
  | .ignoreArrayVariables => options.ignoreArrayVariables
  | .ignoreObjectVariables => options.ignoreObjectVariables
  | .ignoreObjectDestructuring => options.ignoreObjectDestructuring
  | .ignoreExportedVariables => options.ignoreExportedVariables
  | .allowInsideCallback => options.allowInsideCallback
  | .maxInitializerLength => options.maxInitializerLength
  | .maxObjectProperties => options.maxObjectProperties
  | .maxPropertyLength => options.maxPropertyLength

/-- The members of the set that a value gives: what the value holds, each once.  Lists and maps
are no members of sets. -/
def members (value : Value) : Except Error (List Value) :=
  match value.contents? with
  | some items => if items.all (·.isAtom) then .ok (Value.distinct items) else .error .wrongKind
  | none => .error .wrongKind

/-- Gives an option a value. -/
def set (options : RuleOptions) (option : RuleOption) (value : Value) :
    Except Error RuleOptions :=
  match option with
  | .ignoredVariables => (members value).map fun names => { options with ignoredVariables := names }
  | .ignoreFunctionVariables => .ok { options with ignoreFunctionVariables := value }
  | .ignoreArrayVariables => .ok { options with ignoreArrayVariables := value }
  | .ignoreObjectVariables => .ok { options with ignoreObjectVariables := value }
  | .ignoreObjectDestructuring => .ok { options with ignoreObjectDestructuring := value }
  | .ignoreExportedVariables => .ok { options with ignoreExportedVariables := value }
  | .allowInsideCallback => .ok { options with allowInsideCallback := value }
  | .maxInitializerLength => .ok { options with maxInitializerLength := value }
  | .maxObjectProperties => .ok { options with maxObjectProperties := value }
  | .maxPropertyLength => .ok { options with maxPropertyLength := value }

/-- Takes over the entries of a map one after the other; unknown names are passed over. -/
def update (options : RuleOptions) : List (String × Value) → Except Error RuleOptions
  | [] => .ok options
  | (name, value) :: rest =>
    match RuleOption.ofName? name with
    | none => options.update rest
    | some option => do (← options.set option value).update rest

/-- The options that a value gives: a map of options, or the default ones for a value that does
not count as true. -/
def ofValue (value : Value) : Except Error RuleOptions :=
  if !value.truthy then .ok {}
  else
    match value with
    | .map entries => ({} : RuleOptions).update entries
    | _ => .error .noMember

/-- The options as a map, with the ignored names sorted. -/
def entries (options : RuleOptions) : Except Error (List (String × Value)) :=
  RuleOption.all.mapM fun option =>
    match option with
    | .ignoredVariables =>
      match Value.sorted? options.ignoredVariables with
      | some names => .ok (option.key, .list names)
      | none => .error .wrongKind
    | option => .ok (option.key, options.get option)

/-- Whether a value is on or off. -/
def isSwitch : Value → Bool
  | .bool _ => true
  | _ => false

/-- Whether a value is a number of things. -/
def isLimit : Value → Bool
  | .int n => 0 ≤ n
  | _ => false

/-- What is wrong with the options: first the switches are looked at, then the numbers, the
limit on arrays, and the ignored names. -/
def problem? (options : RuleOptions) : Option String :=
  match RuleOption.switches.find? fun option => !isSwitch (options.get option) with
  | some option => some s!"Option '{option.attributeName}' must be true or false"
  | none =>
    match RuleOption.limits.find? fun option => !isLimit (options.get option) with
    | some option => some s!"Option '{option.attributeName}' must be a non-negative integer"
    | none =>
      if !isSwitch options.ignoreArrayVariables && !isLimit options.ignoreArrayVariables then
        some "Option 'ignore_array_variables' must be a boolean or a non-negative integer"
      else if !options.ignoredVariables.all fun | .text _ => true | _ => false then
        some "Option 'ignored_variables' must be a list of names"
      else none

/-! ### Reading the options -/

/-- Whether a switch is on. -/
def isOn (options : RuleOptions) (option : RuleOption) : Bool := (options.get option).truthy

/-- Whether a name is ignored. -/
def ignores (options : RuleOptions) (name : String) : Bool :=
  options.ignoredVariables.any fun | .text s => s = name | _ => false

/-- Whether a count is greater than a value, which has to be a number. -/
def exceeds (count : Nat) (limit : Value) : Except Error Bool :=
  match limit.number? with
  | some limit => .ok (limit.lt (.ofInt count))
  | none => .error .wrongKind

/-- Whether a count is greater than the whole number that a value stands for. -/
def exceedsWhole (count : Nat) (limit : Value) : Except Error Bool :=
  match limit with
  | .text s =>
    match Text.readInt s with
    | .ok n => .ok (n < count)
    | .error fault => .error (.number fault)
  | limit =>
    match limit.number? with
    | some d => .ok (d.truncate < count)
    | none => .error .wrongKind

/-- Whether array literals with so many elements are exempt. -/
def exemptsArray (options : RuleOptions) (elements : Nat) : Except Error Bool :=
  match options.ignoreArrayVariables with
  | .bool b => .ok b
  | .null => .ok false
  | limit => exceedsWhole elements limit

end RuleOptions

end SingleUse
