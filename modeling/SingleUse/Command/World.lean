import SingleUse.Diff.Unified
import SingleUse.Discovery
import SingleUse.Rule
import SingleUse.Settings.Store
import SingleUse.Text.Encoding
import SingleUse.View.Render

/-!
# The world of a run

A run of the program reads and writes the workspace, writes to two streams, and asks the terminal,
the version control system and the parser.  A run that fails leaves behind what it has written
until then.
-/

namespace SingleUse

/-- What a run changes. -/
structure World where
  workspace : Workspace
  /-- What is written to the standard output. -/
  output : String := ""
  /-- What is written to the standard error. -/
  complaints : String := ""

/-- What a run is told. -/
structure Outside where
  terminal : Terminal := {}
  /-- The home directory of the user. -/
  home : SourcePath := {}
  /-- What the version control system lists in a directory, if it has an answer there. -/
  listing : SourcePath → Option Bytes := fun _ => none
  host : Host

/-- Steps of a run. -/
abbrev Run := ExceptT Error (StateM World)

namespace Outside

/-- The encoding of the standard output. -/
def encoding (s : Outside) : Encoding :=
  (s.terminal.encoding.bind Encoding.ofName?).getD .utf8

/-- The width of the terminal; eighty columns if that is not known. -/
def width (s : Outside) : Int :=
  match Text.readInt (s.terminal.variableOf "COLUMNS") with
  | .ok n => if 0 < n then n else 80
  | .error _ => 80

/-- The settings file below a directory. -/
def settingsBelow (directory : SourcePath) : SourcePath :=
  directory.join ⟨"", [".onetime", "config.yaml"]⟩

/-- The settings file of the user. -/
def userFile (s : Outside) : SourcePath := settingsBelow s.home

end Outside

namespace Run

/-- The workspace as it is now. -/
def workspace : Run Workspace := return (← get).workspace

/-- Writes a text to the standard output. -/
def write (s : Outside) (text : String) : Run Unit :=
  modify fun world => { world with output := world.output ++ s.encoding.written text }

/-- Writes a line to the standard output. -/
def print (s : Outside) (text : String) : Run Unit := write s (text ++ "\n")

/-- Writes an error to the standard error. -/
def complain (message : String) : Run Unit :=
  modify fun world => { world with complaints := world.complaints ++ s!"Error: {message}\n" }

/-- Makes ready for a settings file to be written. -/
def prepare (file : SourcePath) : Run Unit :=
  modify fun world => { world with workspace := (world.workspace.prepare file).1 }

/-- Puts a content into a file. -/
def save (path : SourcePath) (content : Content) : Run Unit :=
  modify fun world => { world with workspace := world.workspace.write path content }

/-- Writes bytes into a source file.  The answer is what the system says if that fails. -/
def saveBytes (path : SourcePath) (new : Bytes) : Run (Option String) := do
  let (workspace, fault) := (← Run.workspace).writeBytes path new
  modify fun world => { world with workspace }
  return fault

end Run

end SingleUse
