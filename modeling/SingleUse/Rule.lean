import SingleUse.Checksum
import SingleUse.Eligibility
import SingleUse.Inline
import SingleUse.Language

/-!
# The rule

`Rule.check` reports the variables of a source that are read only once, and `Rule.fix` inlines
them.  Both take the parser as an argument: a `Host` serves the trees of byte strings.

Fixing goes in passes.  Each pass applies the fixes that do not overlap to the source as it is
then, and the result is checked anew.  A pass after which a source that could be parsed no
longer can is undone, and fixing ends there.
-/

namespace SingleUse

/-- What a parser makes of a source. -/
structure Parsed where
  tree : Tree
  hasError : Bool

/-- What serves the trees of byte strings. -/
structure Host where
  /-- Whether there are grammars at all. -/
  installed : Bool := true
  /-- Why a grammar cannot be used. -/
  defect? : String → Option String := fun _ => none
  /-- The tree of a byte string by a grammar. -/
  tree? : String → Bytes → Option Parsed

/-- The tree of a byte string. -/
def Host.parse (host : Host) (grammar : String) (source : Bytes) : Except Error Parsed :=
  if !host.installed then
    .error (.parserUnavailable grammar "tree-sitter-language-pack is not installed")
  else
    match host.defect? grammar with
    | some reason => .error (.parserUnavailable grammar reason)
    | none =>
      match host.tree? grammar source with
      | some parsed => .ok parsed
      | none => .error .noTree

/-- A reported binding; lines and columns count from one and point at the declared name. -/
structure Finding where
  name : String
  path : Option String
  start : Position
  stop : Position
  fix : Option Fix
  fingerprint : String

namespace Finding

/-- The name of the rule. -/
def ruleName : String := "no-one-time-vars"

/-- The message of a finding. -/
def message (f : Finding) : String := s!"Variable '{f.name}' is only used once."

/-- An identification of a finding that does not depend on where it stands. -/
def identify (path : Option String) (name declaration : String) : String :=
  Checksum.digest (Utf8.encode (path.getD "" ++ ":" ++ name ++ ":" ++ declaration))

/-- The finding for a binding. -/
def ofBinding (b : Binding) (source : Bytes) (path : Option String) : Finding where
  name := b.name
  path
  start := b.position source
  stop := match b.target.or b.declaration with
    | some anchor => .ofOffset source anchor.stop
    | none => ⟨0, 0⟩
  fix := (b.inline source).toOption
  fingerprint := identify path b.name ((b.declaration.map (·.text source)).getD "")

/-- An edit as a map. -/
def editValue (e : Edit) : Value :=
  .map [("start", .int e.range.start), ("end", .int e.range.stop), ("text", .text e.text)]

/-- A fix as a map. -/
def fixValue (fix : Fix) : Value :=
  .map [("name", .text fix.name), ("edits", .list (fix.edits.map editValue))]

/-- A finding as a map. -/
def value (f : Finding) : Value :=
  .map [("rule", .text ruleName),
    ("name", .text f.name),
    ("path", (f.path.map Value.text).getD .null),
    ("line", .int (f.start.row + 1)),
    ("column", .int (f.start.column + 1)),
    ("end_line", .int (f.stop.row + 1)),
    ("end_column", .int (f.stop.column + 1)),
    ("message", .text f.message),
    ("fixable", .bool f.fix.isSome),
    ("fix", (f.fix.map fixValue).getD .null),
    ("fingerprint", .text f.fingerprint)]

end Finding

/-- What is found in a source. -/
structure Report where
  findings : List Finding
  /-- Whether the source has broken parts. -/
  hasError : Bool

/-- What becomes of a source that is fixed. -/
structure FixResult where
  source : Bytes
  applied : Nat := 0
  passes : Nat := 0
  /-- What is found in the source afterwards. -/
  findings : List Finding
  /-- Whether a pass was undone. -/
  reverted : Bool := false

/-- Whether a source was changed. -/
def FixResult.changed (r : FixResult) : Bool := r.applied > 0

/-- At most so many passes over a result, where `run` checks a source and `hadError` says that
the first source had broken parts. -/
def fixPasses (run : Bytes → Except Error Report) (hadError : Bool) :
    Nat → FixResult → Except Error FixResult
  | 0, result => .ok result
  | n + 1, result =>
    match result.findings.filterMap (·.fix) with
    | [] => .ok result
    | fixes => do
      let outcome := Fix.applyAll result.source fixes
      let report ← run outcome.source
      if report.hasError && !hadError then return { result with reverted := true }
      fixPasses run hadError n {
        result with
        source := outcome.source
        findings := report.findings
        applied := result.applied + outcome.applied.length
        passes := result.passes + 1 }

/-- A rule: its options, its languages and its parser. -/
structure Rule where
  options : RuleOptions := {}
  languages : Languages := .default
  host : Host

namespace Rule

/-- The most passes unless another number is given. -/
def defaultPasses : Int := 10

/-- Parses a source of a language, which may not be too large. -/
def parse (rule : Rule) (source : Bytes) (language : Language) (path : Option String) :
    Except Error Parsed :=
  if source.length > language.maxFileSize then
    .error (.sourceTooLarge ((path.filter (· ≠ "")).getD "<source>") source.length
      (toString language.maxFileSize))
  else rule.host.parse language.grammar source

/-- Parses and analyses a source; whether it has broken parts. -/
def analyze (rule : Rule) (source : Bytes) (language : Language) (path : Option String) :
    Except Error (Analysis × Bool) := do
  let parsed ← rule.parse source language path
  let analysis ← Analysis.ofTree source parsed.tree language.typeContexts rule.options
  return (analysis, parsed.hasError)

/-- What is found in a source of a language. -/
def report (rule : Rule) (language : Language) (path : Option String) (source : Bytes) :
    Except Error Report := do
  let (analysis, hasError) ← rule.analyze source language path
  let bindings ← analysis.registry.reportable rule.options analysis.scopes
  return ⟨bindings.map (Finding.ofBinding · source path), hasError⟩

/-- The findings in a source. -/
def check (rule : Rule) (source : Bytes) (path language : Option String) :
    Except Error (List Finding) := do
  let language ← rule.languages.choose path language
  return (← rule.report language path source).findings

/-- Fixes a source in at most so many passes. -/
def fix (rule : Rule) (source : Bytes) (path language : Option String) (maxPasses : Int) :
    Except Error FixResult := do
  let language ← rule.languages.choose path language
  let run := rule.report language path
  let report ← run source
  fixPasses run report.hasError maxPasses.toNat { source, findings := report.findings }

end Rule

end SingleUse
