import SingleUse.Language
import SingleUse.Value

/-!
# Exclusions of files

The patterns of files that are passed over when a directory is walked: patterns common to all
languages, patterns of each group of languages, patterns of test files, and extra patterns from
the settings.
-/

namespace SingleUse

/-- The exclusions of one run. -/
structure Exclusions where
  includeTests : Bool := true
  common : List String := ["**/.git/*", "**/.hg/*", "**/.svn/*", "**/build/*", "**/dist/*",
    "**/out/*", "**/coverage/*", "**/.cache/*", "**/.onetime/*"]
  /-- Extra patterns; only texts are patterns, but the settings may hold anything. -/
  extra : List Value := []

namespace Exclusions

/-- The patterns of a group of languages. -/
def ofGroup : String → List String
  | "javascript" => Language.javascriptExcludes
  | "typescript" => Language.typescriptExcludes
  | _ => []

/-- The patterns of the test files of a group of languages. -/
def testsOfGroup : String → List String
  | "javascript" => ["**/*.test.js", "**/*.spec.js", "**/__tests__/*"]
  | "typescript" =>
    ["**/*.test.ts", "**/*.test.tsx", "**/*.spec.ts", "**/*.spec.tsx", "**/__tests__/*"]
  | _ => []

/-- Whether two extra patterns are the same. -/
def same (a b : Value) : Bool :=
  match a, b with
  | .text s, .text t => s = t
  | a, b => a.literal = b.literal

/-- Adds an extra pattern once. -/
def add (e : Exclusions) (pattern : Value) : Exclusions :=
  if e.extra.any (same pattern) then e else { e with extra := e.extra ++ [pattern] }

/-- Removes an extra pattern, or else a common one; whether there was one. -/
def remove (e : Exclusions) (pattern : String) : Exclusions × Bool :=
  if e.extra.any (same (.text pattern)) then
    ({ e with extra := e.extra.eraseP (same (.text pattern)) }, true)
  else if e.common.contains pattern then ({ e with common := e.common.erase pattern }, true)
  else (e, false)

/-- The extra patterns added one after the other. -/
def addAll (e : Exclusions) (patterns : List Value) : Exclusions := patterns.foldl add e

/-- A pattern as a text. -/
def asText : Value → Except Error String
  | .text s => .ok s
  | _ => .error .wrongKind

/-- All patterns of a group of languages, sorted, each once. -/
def patterns (e : Exclusions) (group : String) : Except Error (List String) := do
  let extra ← e.extra.mapM asText
  let tests := if e.includeTests then [] else testsOfGroup group
  return ((e.common ++ ofGroup group ++ extra ++ tests).eraseDups).mergeSort fun a b => a ≤ b

/-- Whether a path below a walked directory is passed over; one without a language is. -/
def excludes (e : Exclusions) (languages : Languages) (path : SourcePath) :
    Except Error Bool :=
  match languages.ofPath? path with
  | none => .ok true
  | some language => do
    return Glob.matchesAny path.text (← e.patterns language.exclusionKey)
      || language.excludes path.text

end Exclusions

end SingleUse
