import SingleUse.Command.Invocation
import SingleUse.Command.World

/-!
# Checking and fixing files

The commands `check` and `fix` take files and directories.  A path that is not there and a file
that cannot be checked are reported as failures, and the other files are checked all the same.
-/

namespace SingleUse

/-- A path that could not be checked, and why. -/
structure Failure where
  path : String
  reason : String
deriving DecidableEq, Repr

/-- A failure as a map. -/
def Failure.value (f : Failure) : Value :=
  .map [("path", .text f.path), ("error", .text f.reason)]

/-- Whether an error concerns one file only. -/
def Error.isOfFile : Error → Bool
  | unsupportedLanguage _ | sourceTooLarge _ _ _ | parserUnavailable _ _ | refused _ _ | decode _
  | noSuchPath _ | notDirectory | fileInTheWay | directoryInTheWay | nameTooLong | denied _ => true
  | _ => false

/-- What the commands work with. -/
structure Lint where
  settings : Settings
  format : Value
  full : Bool := false
  symbols : Symbols
  rule : Rule
  discovery : Discovery

/-- What is found in several files. -/
structure Tally where
  findings : List Finding := []
  failures : List Failure := []

namespace Lint

/-! ### Setting up -/

/-- The walk through directories that settings and arguments ask for. -/
def discoveryOf (settings : Settings) (extra : List String)
    (listing : SourcePath → Option Bytes) : Discovery :=
  let base : Exclusions := { includeTests := settings.includeTests.truthy }
  { exclusions := base.addAll (settings.exclude ++ extra.map .text), listing }

/-- The setting that an argument gives to an option, written into the entries of the options. -/
def override (entries : List (String × Value)) (item : String) :
    Except Error (Except String (List (String × Value))) :=
  match Text.cutAt? '=' item with
  | none => .ok (.error s!"Invalid rule override '{item}'. Use KEY=VALUE")
  | some (key, raw) =>
    let key := Text.trim key
    match RuleOption.ofKey? key with
    | none => .ok (.error s!"Unknown rule option: {key}. Valid: {RuleOption.keyList}")
    | some _ => do
      let value ← Reading.value raw
      let value := if key = RuleOption.ignoredVariables.key then Reading.asNames value else value
      return .ok (Value.put key value entries)

/-- Several such settings one after the other. -/
def overrideAll (entries : List (String × Value)) :
    List String → Except Error (Except String (List (String × Value)))
  | [] => .ok (.ok entries)
  | item :: rest => do
    match ← override entries item with
    | .ok entries => overrideAll entries rest
    | .error message => return .error message

/-- The options with the settings of the arguments; or what is wrong with them. -/
def withOverrides (options : RuleOptions) (items : List String) :
    Except Error (Except String RuleOptions) :=
  if items.isEmpty then .ok (.ok options)
  else do
    match ← overrideAll (← options.entries) items with
    | .error message => return .error message
    | .ok entries =>
      let options ← RuleOptions.ofValue (.map entries)
      return match options.problem? with
        | some message => .error message
        | none => .ok options

/-- What a command works with before its arguments are looked at. -/
def ofSettings (s : Outside) (settings : Settings) : Lint where
  settings
  format := settings.format
  symbols := Symbols.choose settings.symbols s.terminal
  rule := { options := settings.rule, host := s.host }
  discovery := discoveryOf settings [] s.listing

/-- Lays the arguments over what a command works with; the rule has the options of the settings then.
The answer is what is wrong with the arguments, and where it is no success nothing is changed. -/
def configure (lint : Lint) (s : Outside) (a : LintArguments) :
    Lint × Except Error (Option String) :=
  match withOverrides lint.settings.rule a.rules with
  | .error e => (lint, .error e)
  | .ok (.error message) => (lint, .ok (some message))
  | .ok (.ok options) =>
    ({ lint with
        settings := { lint.settings with rule := options }
        format := (a.format.map fun format => .text format.name).getD lint.format
        full := a.full
        rule := { lint.rule with options }
        discovery :=
          discoveryOf lint.settings a.exclude
            (if a.noGitignore then fun _ => none else s.listing) },
      .ok none)

/-- What a command works with; or what is wrong with its arguments. -/
def setUp (s : Outside) (settings : Settings) (a : LintArguments) :
    Except Error (Except String Lint) :=
  match (ofSettings s settings).configure s a with
  | (_, .error e) => .error e
  | (_, .ok (some message)) => .ok (.error message)
  | (lint, .ok none) => .ok (.ok lint)

/-! ### Files -/

/-- The files that a path stands for; a path that is not there is a failure. -/
def filesOf (lint : Lint) (w : Workspace) (raw : String) :
    Except Error (Except Failure (List SourcePath)) :=
  match lint.discovery.discover w [.ofText raw] with
  | .ok files => .ok (.ok files)
  | .error (.noSuchPath path) => .ok (.error ⟨raw, (Error.noSuchPath path).message⟩)
  | .error e => .error e

/-- The files that several paths stand for, and the failures. -/
def gather (lint : Lint) (w : Workspace) :
    List String → Except Error (List SourcePath × List Failure)
  | [] => .ok ([], [])
  | raw :: rest => do
    let here ← lint.filesOf w raw
    let (files, failures) ← lint.gather w rest
    return match here with
      | .ok found => (found ++ files, failures)
      | .error failure => (files, failure :: failures)

/-- The files that several paths stand for, sorted, each once, and the failures. -/
def collect (lint : Lint) (w : Workspace) (paths : List String) :
    Except Error (List SourcePath × List Failure) := do
  let (files, failures) ← lint.gather w paths
  return (SourcePath.sortedSet files, failures)

/-- Whether a size is above the limit of the settings. -/
def isTooLarge (limit : Value) (size : Nat) : Except Error Bool :=
  if limit.truthy then RuleOptions.exceeds size limit else .ok false

/-- The bytes of a source file, which have to be a text and not too many. -/
def source (lint : Lint) (w : Workspace) (path : SourcePath) : Except Error Bytes := do
  match w.read? path with
  | none => throw (.noSuchPath path.text)
  | some bytes =>
    let limit := lint.settings.maxFileSize
    if ← isTooLarge limit bytes.length then
      throw (.sourceTooLarge path.text bytes.length limit.display)
    match Utf8.decode bytes with
    | .ok _ => return bytes
    | .error e => throw (.decode e)

/-! ### Reports -/

/-- The page that shows what is found. -/
def page (tally : Tally) (files : Nat) : Page where
  data := .map [("items", .list (tally.findings.map Finding.value)),
    ("errors", .list (tally.failures.map Failure.value)), ("files", .int files)]

/-- Shows a page. -/
def emit (lint : Lint) (s : Outside) (page : Page) : Run Unit := do
  let view : View := { symbols := lint.symbols, width := s.width, full := lint.full }
  let format ← Format.ofValue lint.format
  Run.print s (← view.render page format)

/-- The exit status: two if there are failures, one if there are findings. -/
def status (tally : Tally) : Nat :=
  if !tally.failures.isEmpty then 2 else if !tally.findings.isEmpty then 1 else 0

/-- Makes an error that concerns one file only an answer: why there is no other answer. -/
def isolated {α : Type} : Except Error α → Except Error (Except String α)
  | .ok a => .ok (.ok a)
  | .error e => if e.isOfFile then .ok (.error e.message) else .error e

/-! ### Checking -/

/-- The findings in a file that may be read. -/
def findingsIn (lint : Lint) (w : Workspace) (path : SourcePath) :
    Except Error (List Finding) := do
  lint.rule.check (← lint.source w path) (some path.text) none

/-- The findings in a file, or why it cannot be checked. -/
def checkFile (lint : Lint) (w : Workspace) (path : SourcePath) :
    Except Error (Except String (List Finding)) :=
  match w.readFault? path with
  | some fault => .ok (.error fault)
  | none => isolated (lint.findingsIn w path)

/-- The findings in several files, and the files that cannot be checked. -/
def checkFiles (lint : Lint) (w : Workspace) : List SourcePath → Except Error Tally
  | [] => .ok {}
  | path :: rest => do
    let outcome ← lint.checkFile w path
    let tally ← lint.checkFiles w rest
    return match outcome with
      | .ok findings => { tally with findings := findings ++ tally.findings }
      | .error reason => { tally with failures := ⟨path.text, reason⟩ :: tally.failures }

/-- The command `check`. -/
def check (lint : Lint) (s : Outside) (a : LintArguments) : Run Nat := do
  let w ← Run.workspace
  let (files, missing) ← lint.collect w a.paths
  let found ← lint.checkFiles w files
  let tally := { found with failures := missing ++ found.failures }
  lint.emit s (page tally files.length)
  return status tally

/-! ### Fixing -/

/-- What became of several files. -/
structure Changes extends Tally where
  /-- The number of fixes. -/
  applied : Nat := 0
  /-- The number of files with fixes. -/
  files : Nat := 0

/-- What becomes of a file that may be read. -/
def resultOf (lint : Lint) (w : Workspace) (path : SourcePath) :
    Except Error (Bytes × FixResult) := do
  let source ← lint.source w path
  return (source, ← lint.rule.fix source (some path.text) none Rule.defaultPasses)

/-- What becomes of a file, or why it cannot be fixed. -/
def fixFile (lint : Lint) (w : Workspace) (path : SourcePath) :
    Except Error (Except String (Bytes × FixResult)) :=
  match w.readFault? path with
  | some fault => .ok (.error fault)
  | none => isolated (lint.resultOf w path)

/-- Writes a fixed file if it is changed, unless it is a dry run.  The answer is why it cannot be
written. -/
def rewrite (a : LintArguments) (path : SourcePath) (result : FixResult) : Run (Option String) :=
  if result.changed && !a.dryRun then
    Run.saveBytes path (Utf8.encode (Utf8.decodeLossy result.source))
  else return none

/-- Shows what is different in a file that is changed. -/
def showChange (s : Outside) (a : LintArguments) (path : SourcePath) (source : Bytes)
    (result : FixResult) : Run Unit := do
  if result.changed && a.diff then
    Run.write s (Diff.unified path.text (Utf8.decodeLossy source)
      (Utf8.decodeLossy result.source))

/-- Fixes a file: what becomes of it, or why it cannot be fixed or written. -/
def fixOne (lint : Lint) (s : Outside) (a : LintArguments) (path : SourcePath) :
    Run (Except String FixResult) := do
  match ← lint.fixFile (← Run.workspace) path with
  | .error reason => return .error reason
  | .ok (source, result) =>
    match ← rewrite a path result with
    | some reason => return .error reason
    | none =>
      showChange s a path source result
      return .ok result

/-- Fixes several files one after the other. -/
def fixFiles (lint : Lint) (s : Outside) (a : LintArguments) :
    List SourcePath → Run Changes
  | [] => return {}
  | path :: rest => do
    let outcome ← lint.fixOne s a path
    let changes ← lint.fixFiles s a rest
    return match outcome with
      | .ok result => { changes with
          findings := result.findings ++ changes.findings
          applied := changes.applied + result.applied
          files := changes.files + if result.changed then 1 else 0 }
      | .error reason => { changes with failures := ⟨path.text, reason⟩ :: changes.failures }

/-- Whether reports are written as data. -/
def isData (lint : Lint) : Bool := lint.format.sameMember (.text Format.json.name)

/-- The command `fix`. -/
def fix (lint : Lint) (s : Outside) (a : LintArguments) : Run Nat := do
  let (files, missing) ← lint.collect (← Run.workspace) a.paths
  let changes ← lint.fixFiles s a files
  let tally : Tally := { changes.toTally with failures := missing ++ changes.failures }
  unless lint.isData do
    let verb := if a.dryRun then "Would inline" else "Inlined"
    Run.print s (lint.symbols.checkPass
      ++ s!" {verb} {changes.applied} variable(s) in {changes.files} file(s)")
  lint.emit s { page tally files.length with emptyMessage := "Nothing left to report." }
  return status tally

end Lint

end SingleUse
