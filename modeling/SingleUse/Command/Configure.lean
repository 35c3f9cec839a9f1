import SingleUse.Command.Invocation
import SingleUse.Command.World

/-!
# Showing and changing settings

The command `config` shows all settings or one of them, or changes one and saves it in the file
of the project or of the user.
-/

namespace SingleUse

namespace Workspace

/-- The settings file at a path, if there is one; one that may not be read counts as one that
cannot be understood. -/
def layer? (w : Workspace) (path : SourcePath) : Option Layer :=
  match w.refusal? path with
  | some e => some (.failing e)
  | none =>
    match w.content? path, w.readFault? path with
    | none, _ => none
    | some _, some _ => some .malformed
    | some (.settings layer), none => some layer
    | some (.bytes b), none =>
      match Utf8.decode b with
      | .ok _ => some .malformed
      | .error e => some (.failing (.decode e))

end Workspace

namespace Configure

/-- Where a layer is kept. -/
def fileOf (s : Outside) (project : SourcePath) : LayerKind → SourcePath
  | .user => s.userFile
  | .project => Outside.settingsBelow project

end Configure

open Configure (fileOf)

/-- The store of the settings of a project. -/
def Store.ofWorkspace (s : Outside) (project : SourcePath) (w : Workspace) : Store where
  layers := {
    user := w.layer? (fileOf s project .user)
    project := w.layer? (fileOf s project .project) }
  terminal := s.terminal
  fault? kind := (w.prepare (fileOf s project kind)).2

namespace Configure

/-- Writes the settings in force into a file. -/
def save (s : Outside) (project : SourcePath) (store : Store) (kind : LayerKind) :
    Run Unit := do
  let file := fileOf s project kind
  let (layer, saved) := store.written kind
  Run.prepare file
  if let some layer := layer then Run.save file (.settings layer)
  let () ← saved

/-- Changes a setting and saves it. -/
def set (s : Outside) (project : SourcePath) (store : Store) (symbols : Symbols)
    (key raw : String) (kind : LayerKind) : Run Nat := do
  let (store, answer) := store.change key raw
  match ← answer with
  | some message =>
    Run.print s (symbols.checkFail ++ " " ++ message)
    return 2
  | none =>
    save s project store kind
    Run.print s (symbols.checkPass ++ s!" Set {key} = {raw}")
    Run.print s ("  " ++ symbols.arrow ++ " " ++ (fileOf s project kind).text)
    return 0

/-- Shows a setting. -/
def get (s : Outside) (store : Store) (symbols : Symbols) (key : String) : Run Nat := do
  match ← store.get key with
  | none =>
    Run.print s (symbols.checkFail ++ " Unknown setting: " ++ key)
    return 2
  | some text =>
    Run.print s text
    return 0

/-- Shows all settings. -/
def «show» (s : Outside) (project : SourcePath) (store : Store) : Run Nat := do
  Run.print s (← store.display (fileOf s project .user).text (fileOf s project .project).text)
  return 0

/-- The command `config`. -/
def run (s : Outside) (project : SourcePath) (store : Store) (settings : Settings)
    (a : ConfigArguments) : Run Nat := do
  let symbols := Symbols.choose settings.symbols s.terminal
  match a.set.filter (· ≠ ""), a.get.filter (· ≠ "") with
  | some item, _ =>
    match Text.cutAt? '=' item with
    | none =>
      Run.print s "Error: Use format KEY=VALUE (e.g., rule.ignoreArrayVariables=3)"
      return 2
    | some (key, raw) => set s project store symbols key raw (if a.user then .user else .project)
  | none, some key => get s store symbols key
  | none, none => «show» s project store

end Configure

end SingleUse
