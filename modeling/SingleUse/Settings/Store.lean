import SingleUse.Settings.Basic
import SingleUse.Settings.Layer
import SingleUse.Settings.Reading
import SingleUse.Symbols

/-!
# The store of settings

A store holds the two layers of settings, the terminal with its environment, and the settings as
they were last changed.  The environment is laid over the layers.  A setting is changed in the
settings in force, checked with the section it belongs to, and then saved: all settings are
written into one of the layers, as far as the system lets it.
-/

namespace SingleUse

/-- Settings, where they come from and where they go. -/
structure Store where
  layers : Layers := {}
  terminal : Terminal := {}
  /-- How the writing of a layer fails. -/
  fault? : LayerKind → Option SaveFault := fun _ => none
  /-- The settings after a change. -/
  changed : Option Settings := none

/-- Why a key does not name a setting. -/
inductive KeyFault where
  /-- It is not two names with a dot between them. -/
  | shape (key : String)
  | noSection (name : String)
  | noOption (name : String)
  | noDisplay (name : String)
  | noFiles (name : String)
deriving DecidableEq, Repr

/-- The wording of a fault. -/
def KeyFault.message : KeyFault → String
  | shape key =>
    s!"Invalid key format: {key}. Use 'section.setting' (e.g., 'display.format')"
  | noSection name => s!"Unknown section: {name}. Valid: rule, display, files"
  | noOption name => s!"Unknown rule option: {name}. Valid: {RuleOption.keyList}"
  | noDisplay name => s!"Unknown display setting: {name}. Valid: symbols, format"
  | noFiles name =>
    s!"Unknown files setting: {name}. Valid: exclude, include_tests, max_file_size"

/-- A setting that a key names. -/
inductive Setting where
  | rule (option : RuleOption)
  | symbols
  | format
  | exclude
  | includeTests
  | maxFileSize
deriving DecidableEq, Repr

namespace Setting

/-- Section and name of a setting, which a dot divides. -/
def partsOf? (key : String) : Option (String × String) :=
  match Text.split '.' key with
  | [first, second] => some (first, second)
  | _ => none

/-- The setting that a key names. -/
def ofKey (key : String) : Except KeyFault Setting :=
  match partsOf? key with
  | none => .error (.shape key)
  | some ("rule", name) =>
    match RuleOption.ofName? name with
    | some option => .ok (.rule option)
    | none => .error (.noOption name)
  | some ("display", "symbols") => .ok .symbols
  | some ("display", "format") => .ok .format
  | some ("display", name) => .error (.noDisplay name)
  | some ("files", "exclude") => .ok .exclude
  | some ("files", "include_tests") => .ok .includeTests
  | some ("files", "max_file_size") => .ok .maxFileSize
  | some ("files", name) => .error (.noFiles name)
  | some (name, _) => .error (.noSection name)

end Setting

namespace Settings

/-- Gives a setting the value that a text stands for. -/
def assign (settings : Settings) (setting : Setting) (raw : String) : Except Error Settings :=
  match setting with
  | .rule option => do
    let value ← Reading.value raw
    let value := if option = .ignoredVariables then Reading.asNames value else value
    return { settings with rule := ← settings.rule.set option value }
  | .symbols => .ok { settings with symbols := .text raw }
  | .format => .ok { settings with format := .text raw }
  | .exclude => do return { settings with exclude := Reading.asPatterns (← Reading.value raw) }
  | .includeTests =>
    .ok { settings with includeTests := .bool (["true", "1", "yes"].contains (Text.lower raw)) }
  | .maxFileSize => do return { settings with maxFileSize := ← Reading.value raw }

/-- What is wrong with the section that a setting belongs to. -/
def problemNear? (settings : Settings) : Setting → Option String
  | .rule _ => settings.rule.problem?
  | .symbols | .format => settings.displayProblem?
  | .exclude | .includeTests | .maxFileSize => settings.filesProblem?

end Settings

namespace Store

/-- Sets an entry of a section, which has to be a map if it is there. -/
def assignEntry (part key : String) (value : Value) (entries : List (String × Value)) :
    Except Error (List (String × Value)) :=
  match Value.find? part entries with
  | none => .ok (Value.put part (.map [(key, value)]) entries)
  | some (.map old) => .ok (Value.put part (.map (Value.put key value old)) entries)
  | some _ => .error .wrongKind

/-- Sets an entry of a section to what a variable of the environment stands for, if the variable
is set and not empty. -/
def assignVariable (terminal : Terminal) (name part key : String) (read : String → Value)
    (entries : List (String × Value)) : Except Error (List (String × Value)) :=
  let raw := terminal.variableOf name
  if raw = "" then .ok entries else assignEntry part key (read raw) entries

/-- The environment laid over the entries of the layers. -/
def withEnvironment (terminal : Terminal) (entries : List (String × Value)) :
    Except Error (List (String × Value)) := do
  let entries ← assignVariable terminal "ONETIME_IGNORED_VARIABLES" "rule" "ignoredVariables"
    (fun raw => .list ((Reading.names raw).map .text)) entries
  let entries ← assignVariable terminal "ONETIME_FORMAT" "display" "format" .text entries
  assignVariable terminal "ONETIME_SYMBOLS" "display" "symbols" .text entries

/-- The settings in force: those after the last change, or those of the layers. -/
def load (store : Store) : Except Error Settings :=
  match store.changed with
  | some settings => .ok settings
  | none => do Settings.ofEntries (← withEnvironment store.terminal (← store.layers.entries))

/-- Forgets the settings after the last change. -/
def reload (store : Store) : Store := { store with changed := none }

/-- Changes a setting without saving it.  The answer is what is wrong with the key or, after the
change, with the section; the change stands all the same. -/
def change (store : Store) (key raw : String) : Store × Except Error (Option String) :=
  match store.load with
  | .error e => (store, .error e)
  | .ok settings =>
    match Setting.ofKey key with
    | .error fault => ({ store with changed := some settings }, .ok (some fault.message))
    | .ok setting =>
      match settings.assign setting raw with
      | .error e => ({ store with changed := some settings }, .error e)
      | .ok settings =>
        ({ store with changed := some settings }, .ok (settings.problemNear? setting))

/-- What the file of a layer holds after all settings in force are written into it, if it is opened
at all, and what becomes of the writing.  Settings that have no entries leave the file empty. -/
def written (store : Store) (kind : LayerKind) : Option Layer × Except Error Unit :=
  match store.load with
  | .error e => (none, .error e)
  | .ok settings =>
    match store.fault? kind, settings.entries with
    | some (.unopened e), _ => (none, .error e)
    | _, .error e => (some (.value .null), .error e)
    | some (.brokenOff e left), .ok _ => (some left, .error e)
    | none, .ok entries => (some (.value (.map entries)), .ok ())

/-- Writes all settings in force into a layer. -/
def save (store : Store) (kind : LayerKind) : Store × Except Error Unit :=
  match store.written kind with
  | (none, saved) => (store, saved)
  | (some layer, saved) => ({ store with layers := store.layers.set kind layer }, saved)

/-- Changes a setting and saves it in a layer.  The answer is what is wrong with the change; then
nothing is saved. -/
def set (store : Store) (key raw : String) (kind : LayerKind) :
    Store × Except Error (Option String) :=
  match store.change key raw with
  | (store, .ok none) =>
    let (store, saved) := store.save kind
    (store, saved.map fun _ => none)
  | refused => refused

/-- The text of a setting, if it has one. -/
def textOf : Value → Option String
  | .bool b => some (Text.lower (Value.boolText b))
  | .list items => some (",".intercalate (items.map (·.display)))
  | .null => none
  | value => some value.display

/-- The text of the setting that a key names. -/
def get (store : Store) (key : String) : Except Error (Option String) := do
  let settings ← store.load
  match Setting.partsOf? key with
  | none => return none
  | some (part, name) =>
    match Value.find? part (← settings.entries) with
    | some (.map entries) =>
      let spare := (RuleOption.all.find? fun option => option.attributeName = name).map (·.key)
      let found := (Value.find? name entries).or
        (if part = "rule" then spare.bind (Value.find? · entries) else none)
      return found.bind textOf
    | _ => return none

/-- Texts in one line. -/
def joined (items : List Value) : Except Error String := do
  let texts ← items.mapM fun
    | .text s => Except.ok s
    | _ => Except.error Error.wrongKind
  return ", ".intercalate texts

/-- How an option is shown. -/
def shown (symbols : Symbols) : Value → Except Error String
  | .bool b => .ok (if b then symbols.checkPass ++ " on" else "off")
  | .list [] => .ok "(none)"
  | .list items => joined items
  | value => .ok value.display

/-- All settings and the paths of the two files, as they are shown. -/
def display (store : Store) (userPath projectPath : String) : Except Error String := do
  let settings ← store.load
  let symbols := Symbols.choose settings.symbols store.terminal
  let options ← (← settings.rule.entries).mapM fun (key, value) =>
    return s!"  {key}: " ++ (← shown symbols value)
  let exclude ← joined settings.exclude
  let size := if settings.maxFileSize.truthy then settings.maxFileSize.display
    else "language default"
  return "\n".intercalate (["Rule options (no-one-time-vars):"] ++ options ++ [
    "",
    "Display:",
    "  Symbols: " ++ settings.symbols.display,
    "  Format: " ++ settings.format.display,
    "",
    "Files:",
    "  Extra excludes: " ++ (if exclude = "" then "(none)" else exclude),
    "  Include tests: " ++ settings.includeTests.display,
    "  Max file size: " ++ size,
    "",
    "Config files:",
    "  User: " ++ userPath,
    "  Project: " ++ projectPath])

end Store

end SingleUse
