import SingleUse.Command.Program
import SingleUse.Json.Reader

/-!
# The command line

The program as it is run: it looks at the files below the current directory and at the settings
of the user, carries out what the command line asks for, writes the files that were changed and
ends with the exit status.  Settings are kept in JSON.  There is no parser of sources in the
program itself, so that source files are reported as files that cannot be checked.
-/

namespace SingleUse

namespace CommandLine

/-- The variables of the environment that the program asks for. -/
def variableNames : List String :=
  ["ONETIME_PROJECT_PATH", "ONETIME_IGNORED_VARIABLES", "ONETIME_FORMAT", "ONETIME_SYMBOLS",
    "ONETIME_ASCII_ONLY", "ONETIME_UNICODE", "LANG", "LC_ALL", "COLUMNS"]

/-- What is shown when help is asked for. -/
def helpText : String := "\n".intercalate [
  "usage: onetime [-h] [--project PROJECT] [--verbose] [--version] \x7bcheck,fix,config\x7d ...",
  "",
  "onetime -- find and inline variables that are used only once",
  "",
  "commands:",
  "  check [PATH ...]    Report variables that are used only once",
  "  fix [PATH ...]      Inline variables that are used only once",
  "  config              View or set configuration",
  "",
  "Exit status: 0 clean, 1 findings, 2 errors.",
  ""]

/-- Whether the components are those of a settings file. -/
def isSettings (parts : List String) : Bool :=
  [".onetime", "config.yaml"].isSuffixOf parts

/-- What a settings file holds. -/
def layerOf (bytes : Bytes) : Layer :=
  match Utf8.decode bytes with
  | .error e => .failing (.decode e)
  | .ok text => ((Json.read? text).map .value).getD .malformed

/-- What a file holds. -/
def contentOf (parts : List String) (bytes : Bytes) : Content :=
  if isSettings parts then .settings (layerOf bytes) else .bytes bytes

/-- The bytes of a content, none if they are not known. -/
def bytesOf : Content → Option Bytes
  | .bytes bytes => some bytes
  | .settings (.value value) => some (Utf8.encode (Json.write .indented 0 value ++ "\n"))
  | .settings _ => none

/-- The text of the path with some components. -/
def pathText (parts : List String) : String :=
  if Workspace.isRooted parts then
    (SourcePath.mk (parts.headD "") parts.tail).text
  else (SourcePath.mk "" parts).text

/-- Whether the contents of a file matter to a run. -/
def matters (parts : List String) : Bool :=
  isSettings parts || Languages.default.isSupported ⟨"", parts⟩

/-- The files that a run has changed, with their bytes. -/
def changes (before after : Workspace) : List (List String × Bytes) :=
  after.files.filterMap fun (parts, content) =>
    let bytes := bytesOf content
    let old := (before.contentAt? parts).bind bytesOf
    if bytes = old then none else bytes.map fun bytes => (parts, bytes)

/-- The bytes of a file, or why it cannot be read. -/
def readFile (path : String) : IO (Except String Bytes) := do
  try return .ok (← IO.FS.readBinFile path).toList
  catch e => return .error (toString e)

/-- Two workspaces together. -/
def together (w w' : Workspace) : Workspace where
  files := w.files ++ w'.files
  dirs := w.dirs ++ w'.dirs
  readFault? := fun path => (w.readFault? path).or (w'.readFault? path)

/-- The workspace with a file that may not be read. -/
def withUnreadable (w : Workspace) (parts : List String) (fault : String) : Workspace :=
  together w {
    files := [(parts, contentOf parts [])]
    readFault? := fun path => if w.locate? path = some parts then some fault else none }

/-- The files and directories below a directory, of which the entries are given. -/
partial def survey (parts : List String) (entries : Array IO.FS.DirEntry) : IO Workspace := do
  let mut workspace : Workspace := { dirs := [parts] }
  for entry in entries do
    let path := parts ++ [entry.fileName]
    if ← entry.path.isDir then
      let below ← try survey path (← entry.path.readDir) catch _ => pure { dirs := [path] }
      workspace := together workspace below
    else
      match ← if matters path then readFile (pathText path) else pure (.ok []) with
      | .ok bytes => workspace := together workspace { files := [(path, contentOf path bytes)] }
      | .error fault => workspace := withUnreadable workspace path fault
  return workspace

/-- The workspace with the file at a path outside of it, if there is one. -/
def withFile (workspace : Workspace) (path : SourcePath) : IO Workspace := do
  match ← readFile path.text with
  | .ok bytes => return workspace.write path (contentOf path.components bytes)
  | .error _ => return workspace

/-- Writes a file, and makes the directories that it lies in. -/
def writeFile (parts : List String) (bytes : Bytes) : IO Unit := do
  IO.FS.createDirAll (pathText parts.dropLast)
  IO.FS.writeBinFile (pathText parts) ⟨bytes.toArray⟩

/-- What a run is told. -/
def outside : IO Outside := do
  let values ← variableNames.mapM fun name => return (← IO.getEnv name).map fun value => (name, value)
  let home ← IO.getEnv "HOME"
  return {
    terminal := { environment := values.filterMap id }
    home := .ofText (home.getD "")
    host := { installed := false, tree? := fun _ _ => none } }

end CommandLine

end SingleUse

open SingleUse CommandLine in
/-- Runs the program. -/
def main (arguments : List String) : IO UInt32 := do
  let outside ← outside
  let here ← survey [] (← (← IO.currentDir).readDir)
  let before ← withFile here outside.userFile
  let (ending, world) := Program.runFrom outside arguments { workspace := before }
  IO.print world.output
  IO.eprint world.complaints
  for (parts, bytes) in changes before world.workspace do
    writeFile parts bytes
  match ending with
  | .ok (.exit status) => return status.toUInt32
  | .ok .help =>
    IO.print helpText
    return 0
  | .error e =>
    IO.eprintln e.message
    return 1
