import SingleUse.Options

/-!
# Settings

The settings in force: the options of the rule, how findings are shown, and which files are
checked.  As with the options, a settings file may give a setting any value, and
`Settings.problem?` says whether the values are of the kinds they should be.
-/

namespace SingleUse

/-- The settings in force. -/
structure Settings where
  rule : RuleOptions := {}
  /-- The set of symbols: unicode, ascii or auto. -/
  symbols : Value := .text "auto"
  /-- The format of reports: list, json or summary. -/
  format : Value := .text "list"
  /-- Patterns of files that are passed over when a directory is walked. -/
  exclude : List Value := []
  includeTests : Value := .bool true
  /-- The size of the largest file that is checked; null if the language decides. -/
  maxFileSize : Value := .null

namespace Settings

/-- The section with a name. -/
def sectionOf (name : String) (entries : List (String × Value)) : Value :=
  (Value.find? name entries).getD .null

/-- The entries of a section; a section that does not count as true has none. -/
def entriesOf (value : Value) : Except Error (List (String × Value)) :=
  if !value.truthy then .ok []
  else
    match value with
    | .map entries => .ok entries
    | _ => .error .noMember

/-- The settings that the entries of a map give. -/
def ofEntries (entries : List (String × Value)) : Except Error Settings := do
  let rule ← RuleOptions.ofValue (sectionOf "rule" entries)
  let display ← entriesOf (sectionOf "display" entries)
  let files ← entriesOf (sectionOf "files" entries)
  match ((Value.find? "exclude" files).getD .null).contents? with
  | none => throw .wrongKind
  | some exclude =>
    return {
      rule
      symbols := (Value.find? "symbols" display).getD (.text "auto")
      format := (Value.find? "format" display).getD (.text "list")
      exclude
      includeTests := (Value.find? "include_tests" files).getD (.bool true)
      maxFileSize := (Value.find? "max_file_size" files).getD .null }

/-- The settings that a value gives. -/
def ofValue : Value → Except Error Settings
  | .map entries => ofEntries entries
  | _ => .error .noMember

/-- The settings as a map with a map for each section. -/
def entries (settings : Settings) : Except Error (List (String × Value)) := do
  return [
    ("rule", .map (← settings.rule.entries)),
    ("display", .map [("symbols", settings.symbols), ("format", settings.format)]),
    ("files", .map [("exclude", .list settings.exclude), ("include_tests", settings.includeTests),
      ("max_file_size", settings.maxFileSize)])]

/-- The sets of symbols that can be asked for. -/
def validSymbols : List String := ["unicode", "ascii", "auto"]

/-- The formats that can be asked for. -/
def validFormats : List String := ["list", "json", "summary"]

/-- Whether a value is one of some texts. -/
def isOneOf (texts : List String) : Value → Bool
  | .text s => texts.contains s
  | _ => false

/-- What is wrong with the settings of the display. -/
def displayProblem? (settings : Settings) : Option String :=
  if !isOneOf validSymbols settings.symbols then
    some (s!"Unknown symbols setting '{settings.symbols.display}'. Valid: "
      ++ ", ".intercalate validSymbols)
  else if !isOneOf validFormats settings.format then
    some (s!"Unknown format '{settings.format.display}'. Valid: "
      ++ ", ".intercalate validFormats)
  else none

/-- Whether a value is a size, or null. -/
def isSize : Value → Bool
  | .null => true
  | .int n => 0 < n
  | _ => false

/-- What is wrong with the settings of the files. -/
def filesProblem? (settings : Settings) : Option String :=
  if isSize settings.maxFileSize then none
  else some "files.max_file_size must be a positive integer"

/-- What is wrong with the settings, section by section. -/
def problem? (settings : Settings) : Option String :=
  (settings.rule.problem?.or settings.displayProblem?).or settings.filesProblem?

end Settings

end SingleUse
