import SingleUse.Error
import SingleUse.Settings.Layer
import SingleUse.SourcePath
import SingleUse.Text.Utf8

/-!
# Workspaces

A workspace is what a run sees of the file system: the files below the current directory with
their contents, and the directories, some of which may be empty.  Of other files, whose paths
have a root or start upward, it may hold some as well.  A file is a byte string or a settings file,
of which only the value that it holds is known.

Steps upward from the current directory lead to directories of which no more is known than that
they are there.

The system may refuse to look a path up, to list a directory, or to read or write a file.  Then it
says so by a text of its own.  A directory whose listing is not permitted is passed over, like one
with nothing in it.  The writing of a file empties it first, so it may be left with a part of what
was to be written.
-/

namespace SingleUse

/-- What a file holds. -/
inductive Content where
  | bytes (b : Bytes)
  | settings (layer : Layer)

/-- Why a directory is not listed. -/
inductive ListFault where
  /-- It is not permitted. -/
  | forbidden
  /-- The system says something else. -/
  | failing (reason : String)

/-- How the writing of a source file fails, and what the system says. -/
inductive WriteFault where
  /-- The file is not opened, and stays as it is. -/
  | unopened (reason : String)
  /-- The file is emptied, and the writing breaks off after some bytes. -/
  | brokenOff (reason : String) (written : Nat)

/-- Files and directories by their components, mostly below the current directory. -/
structure Workspace where
  files : List (List String × Content) := []
  dirs : List (List String) := []
  /-- What the system says if a path may not be looked up. -/
  lookupFault? : SourcePath → Option String := fun _ => none
  /-- Why a directory is not listed. -/
  listFault? : SourcePath → Option ListFault := fun _ => none
  /-- What the system says if a file may not be read. -/
  readFault? : SourcePath → Option String := fun _ => none
  /-- How the writing of a source file fails. -/
  writeFault? : SourcePath → Option WriteFault := fun _ => none
  /-- How the writing of a settings file fails. -/
  saveFault? : SourcePath → Option SaveFault := fun _ => none

/-- What the system says when the writing of a source file fails. -/
def WriteFault.reason : WriteFault → String
  | unopened reason | brokenOff reason _ => reason

namespace Workspace

/-- Whether the components are those of a path with a root. -/
def isRooted (parts : List String) : Bool :=
  parts.head?.any fun first => first = "/" || first = "//"

/-- Whether the components lead to no directory below the current one or below a root: to the
current directory, one above it, or a root. -/
def isTop (parts : List String) : Bool :=
  parts.all (· = "..") || (isRooted parts && parts.length = 1)

/-- The components of the directory around one; there is none above a root. -/
def around (parts : List String) : List String :=
  if parts.all (· = "..") then parts ++ [".."]
  else if isTop parts then parts
  else parts.dropLast

/-- Whether the components are those of a directory: of one that is always there, one that is
listed, or one that holds a file or a directory. -/
def isDirAt (w : Workspace) (parts : List String) : Bool :=
  isTop parts || w.dirs.any (parts.isPrefixOf ·)
    || w.files.any fun file => parts.isPrefixOf file.1 && file.1 ≠ parts

/-- The file at some components. -/
def contentAt? (w : Workspace) (parts : List String) : Option Content :=
  (w.files.find? fun file => file.1 = parts).map (·.2)

/-- The components that a path leads to from a directory, with steps upward taken; none when it
passes through something that is no directory. -/
def follow (w : Workspace) (here : List String) : List String → Option (List String)
  | [] => some here
  | part :: rest =>
    if !w.isDirAt here then none
    else w.follow (if part = ".." then around here else here ++ [part]) rest

/-- The components at which a path starts. -/
def startOf (path : SourcePath) : List String := if path.root = "" then [] else [path.root]

/-- The components that a path leads to, with the root as the first one if it has one. -/
def locate? (w : Workspace) (path : SourcePath) : Option (List String) :=
  w.follow (startOf path) path.parts

/-- The most bytes that a name may have. -/
def nameLimit : Nat := 255

/-- The most bytes that a path may have. -/
def pathLimit : Nat := 4095

/-- Whether a path from a directory on comes to a name that is too long. -/
def meetsOverlong (w : Workspace) (here : List String) : List String → Bool
  | [] => false
  | part :: rest =>
    w.isDirAt here && (nameLimit < part.utf8ByteSize
      || w.meetsOverlong (if part = ".." then around here else here ++ [part]) rest)

/-- Whether a path is too long to be looked for. -/
def isOverlong (w : Workspace) (path : SourcePath) : Bool :=
  !path.hasNull && (pathLimit < path.text.utf8ByteSize
    || w.meetsOverlong (startOf path) path.parts)

/-- Why a path cannot be looked up.  There is nothing at a path with a null character, and nothing
is refused. -/
def refusal? (w : Workspace) (path : SourcePath) : Option Error :=
  if w.isOverlong path then some .nameTooLong
  else if path.hasNull then none
  else (w.lookupFault? path).map .denied

/-- Why a directory cannot be listed, apart from want of permission. -/
def listRefusal? (w : Workspace) (path : SourcePath) : Option Error :=
  if w.isOverlong path then some .nameTooLong
  else match w.listFault? path with
    | some (.failing reason) => some (.denied reason)
    | _ => none

/-- The contents of a file. -/
def content? (w : Workspace) (path : SourcePath) : Option Content :=
  (w.locate? path).bind w.contentAt?

/-- Whether a path leads to a directory. -/
def isDir (w : Workspace) (path : SourcePath) : Bool := (w.locate? path).any w.isDirAt

/-- Whether a path leads to a file. -/
def isFile (w : Workspace) (path : SourcePath) : Bool := (w.content? path).isSome

/-- Whether a path leads anywhere. -/
def exists? (w : Workspace) (path : SourcePath) : Bool := w.isDir path || w.isFile path

/-- The bytes of a file. -/
def read? (w : Workspace) (path : SourcePath) : Option Bytes :=
  match w.content? path with
  | some (.bytes b) => some b
  | _ => none

/-- Goes down from a directory and makes the directories on the way that are not there.  A file on
the way ends it: the file stands in the place of the directory to be made if it is the last
component, or if directories were `made` before it, and otherwise it is passed through like a
directory. -/
def descend (w : Workspace) (made : Bool) (here : List String) :
    List String → Workspace × Except Error Unit
  | [] => (w, .ok ())
  | part :: rest =>
    if part = ".." then w.descend made (around here) rest
    else if nameLimit < part.utf8ByteSize then (w, .error .nameTooLong)
    else
      let next := here ++ [part]
      if (w.contentAt? next).isSome then
        (w, .error (if made || rest.isEmpty then .fileInTheWay else .notDirectory))
      else if w.isDirAt next then w.descend made next rest
      else { w with dirs := w.dirs ++ [next] }.descend true next rest

/-- Makes a directory and those around it, as far as they are not there. -/
def makeDir (w : Workspace) (path : SourcePath) : Workspace × Except Error Unit :=
  if path.hasNull then (w, .error .nullInPath) else w.descend false (startOf path) path.parts

/-- Makes ready for a settings file to be written: the directory around it is made.  The answer is
how the writing will fail. -/
def prepare (w : Workspace) (file : SourcePath) : Workspace × Option SaveFault :=
  match w.makeDir file.parent with
  | (w, .error e) => (w, some (.unopened e))
  | (w, .ok ()) =>
    (w, if w.isDir file then some (.unopened .directoryInTheWay) else w.saveFault? file)

/-- Puts a content into the place of the old one, or at the end. -/
def placeAt (parts : List String) (content : Content) :
    List (List String × Content) → List (List String × Content)
  | [] => [(parts, content)]
  | file :: rest =>
    if file.1 = parts then (parts, content) :: rest else file :: placeAt parts content rest

/-- Writes a file. -/
def write (w : Workspace) (path : SourcePath) (content : Content) : Workspace :=
  { w with files := placeAt ((w.locate? path).getD path.components) content w.files }

/-- Writes bytes into a source file: what is left, and what the system says if it fails. -/
def writeBytes (w : Workspace) (path : SourcePath) (new : Bytes) : Workspace × Option String :=
  match w.writeFault? path with
  | none => (w.write path (.bytes new), none)
  | some (.unopened reason) => (w, some reason)
  | some (.brokenOff reason written) => (w.write path (.bytes (new.take written)), some reason)

/-- The path from one place to another one at or below it; a place with a root, or one that starts
upward, does not lie below the current directory. -/
def relative? (parts place : List String) : Option SourcePath :=
  let rest := place.drop parts.length
  if parts.isPrefixOf place && isRooted parts = isRooted place && rest.head? ≠ some ".." then
    some ⟨"", rest⟩
  else none

/-- The paths of the files below a directory, relative to it. -/
def below (w : Workspace) (directory : SourcePath) : List SourcePath :=
  match w.locate? directory with
  | none => []
  | some parts => w.files.filterMap fun file => relative? parts file.1

/-- The paths of a directory and of the directories below it, relative to it. -/
def dirsBelow (w : Workspace) (directory : SourcePath) : List SourcePath :=
  match w.locate? directory with
  | none => []
  | some parts =>
    {} :: ((w.dirs ++ w.files.map (·.1.dropLast)).filterMap (relative? parts)).flatMap fun path =>
      (List.range path.parts.length).map fun n => ⟨"", path.parts.take (n + 1)⟩

/-- Whether the directories on the way from a directory to what lies below it can be listed. -/
def isSeen (w : Workspace) (directory path : SourcePath) : Bool :=
  (List.range path.parts.length).all fun n =>
    (w.listFault? (directory.join ⟨"", path.parts.take n⟩)).isNone

end Workspace

end SingleUse
