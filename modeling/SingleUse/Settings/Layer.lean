import SingleUse.Error
import SingleUse.Value

/-!
# Layers

Settings come from files, one of the user and one of the project.  A file holds a value, or nothing
that can be understood.  Only maps are settings; anything else counts as an empty map.  A layer is
laid over another one key by key, and maps within them as well.

There are files that fail whoever reads them: those whose bytes are no text, those that hold
something of which no value can be made, such as a day that no month has, and those that the system
does not let be looked up.
-/

namespace SingleUse

/-- What a settings file holds. -/
inductive Layer where
  /-- Something that cannot be opened or understood. -/
  | malformed
  /-- Something that fails when it is read. -/
  | failing (e : Error)
  | value (v : Value)

/-- How the writing of a settings file fails. -/
inductive SaveFault where
  /-- The file is not opened, and stays as it is. -/
  | unopened (e : Error)
  /-- The file is emptied, and the writing breaks off with something else in the file. -/
  | brokenOff (e : Error) (left : Layer)

namespace Layer

/-- The entries of a layer. -/
def entries : Layer → Except Error (List (String × Value))
  | .value (.map entries) => .ok entries
  | .failing e => .error e
  | _ => .ok []

mutual

/-- The entries of one map laid over those of another. -/
def laidOver (base : List (String × Value)) : List (String × Value) → List (String × Value)
  | [] => base
  | (key, new) :: rest =>
    laidOver (Value.put key (valueOver (Value.find? key base) new) base) rest

/-- One value laid over another, which may not be there. -/
def valueOver : Option Value → Value → Value
  | some (.map base), .map entries => .map (laidOver base entries)
  | _, new => new

end

end Layer

/-- The files of the user and of the project, as far as there are any. -/
structure Layers where
  user : Option Layer := none
  project : Option Layer := none

/-- The two files of settings. -/
inductive LayerKind where
  | user | project
deriving DecidableEq, Repr

namespace Layers

/-- The entries of a file; a file that is not there has none. -/
def entriesOf (layer : Option Layer) : Except Error (List (String × Value)) :=
  (layer.map Layer.entries).getD (.ok [])

/-- The entries of the project laid over those of the user, which are read first. -/
def entries (layers : Layers) : Except Error (List (String × Value)) := do
  let user ← entriesOf layers.user
  let project ← entriesOf layers.project
  return Layer.laidOver (Layer.laidOver [] user) project

/-- The layer of a kind. -/
def get (layers : Layers) : LayerKind → Option Layer
  | .user => layers.user
  | .project => layers.project

/-- Puts a layer in the place of the old one. -/
def set (layers : Layers) : LayerKind → Layer → Layers
  | .user, layer => { layers with user := some layer }
  | .project, layer => { layers with project := some layer }

end Layers

end SingleUse
