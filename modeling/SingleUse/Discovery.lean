import SingleUse.Exclusions
import SingleUse.Glob
import SingleUse.Text.Lines
import SingleUse.Workspace

/-!
# Discovery

The files that a run works on.  A file is taken as given if its extension has a language.  A
directory is walked: the version control system is asked for its files if that is wanted and
possible, and otherwise all files below it are looked at; those with a language that are not
excluded are taken.

Everything that is found is looked up.  Where the system refuses that, the walk fails.
-/

namespace SingleUse

/-- How directories are walked. -/
structure Discovery where
  languages : Languages := .default
  exclusions : Exclusions := {}
  /-- What the version control system lists in a directory, one path on a line; none if it is not
  asked, or if it has no answer there. -/
  listing : SourcePath → Option Bytes := fun _ => none

namespace Discovery

/-- Whether the name of a path ends in the extension of a language, as a pattern says it;
extensions hold no slashes. -/
def isNamed (d : Discovery) (path : SourcePath) : Bool :=
  d.languages.extensions.any fun extension => Glob.isMatch ("*" ++ extension) path.name

/-- The directories that are listed to find files by their names, relative to the one where that
begins; nothing is listed if there is no extension to look for. -/
def scannedDirs (d : Discovery) (w : Workspace) (directory : SourcePath) : List SourcePath :=
  if d.languages.extensions.isEmpty then []
  else (w.dirsBelow directory).filter (w.isSeen directory)

/-- Whether a file or a directory below a directory is found by its name. -/
def isScanned (d : Discovery) (w : Workspace) (directory path : SourcePath) : Bool :=
  d.isNamed path && w.isSeen directory path

/-- The files and directories that are found by their names and looked up to see which are files. -/
def scannedPaths (d : Discovery) (w : Workspace) (directory : SourcePath) : List SourcePath :=
  (w.below directory ++ w.dirsBelow directory).filter (d.isScanned w directory)

/-- The files below a directory that are found by their names. -/
def scanned (d : Discovery) (w : Workspace) (directory : SourcePath) :
    Except Error (List SourcePath) :=
  let unlisted := (d.scannedDirs w directory).findSome? fun path =>
    w.listRefusal? (directory.join path)
  let refused := (d.scannedPaths w directory).findSome? fun path =>
    w.refusal? (directory.join path)
  match unlisted.or refused with
  | some e => .error e
  | none => .ok (SourcePath.sortedSet ((w.below directory).filter (d.isScanned w directory)))

/-- The paths in a listing that end in the extension of a language, in either case. -/
def listed (d : Discovery) (listing : String) : List SourcePath :=
  (Text.bareLines listing).filterMap fun line =>
    let line := Text.trim line
    if line ≠ ""
        && d.languages.extensions.any (fun extension =>
          Glob.isMatch ("*" ++ extension) (Text.lower line)) then
      some (SourcePath.ofText line)
    else none

/-- The files that the version control system lists, as far as they are there.  What it writes has
to be a text. -/
def tracked (d : Discovery) (w : Workspace) (directory : SourcePath) (listing : Bytes) :
    Except Error (List SourcePath) :=
  match Utf8.decode listing with
  | .error e => .error (.decode e)
  | .ok text =>
    match (d.listed text).findSome? fun path => w.refusal? (directory.join path) with
    | some e => .error e
    | none => .ok ((d.listed text).filter fun path => w.isFile (directory.join path))

/-- The files that a walk through a directory takes. -/
def walk (d : Discovery) (w : Workspace) (directory : SourcePath) :
    Except Error (List SourcePath) := do
  let candidates ← match d.listing directory with
    | some listing => d.tracked w directory listing
    | none => d.scanned w directory
  let kept ← (candidates.filter d.languages.isSupported).filterM fun path =>
    (d.exclusions.excludes d.languages path).map not
  return kept.map directory.join

/-- The files that a path stands for. -/
def expand (d : Discovery) (w : Workspace) (path : SourcePath) :
    Except Error (List SourcePath) :=
  match w.refusal? path with
  | some e => .error e
  | none =>
    if !w.exists? path then .error (.noSuchPath path.text)
    else if w.isDir path then d.walk w path
    else if d.languages.isSupported path then .ok [path]
    else .ok []

/-- The files that several paths stand for, sorted, each once. -/
def discover (d : Discovery) (w : Workspace) (paths : List SourcePath) :
    Except Error (List SourcePath) := do
  return SourcePath.sortedSet (← paths.mapM (d.expand w)).flatten

end Discovery

end SingleUse
