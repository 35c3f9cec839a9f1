import SingleUse.Text.Case
import SingleUse.Text.Split

/-!
# Paths

A path is a root and a list of components.  Empty components and dots are dropped when a path
is read, so that `a//b`, `./a/b` and `a/b/` are the same path.  Two slashes at the start are a
root of their own, one slash or more than two are the usual root.
-/

namespace SingleUse

/-- A path in normal form. -/
structure SourcePath where
  root : String := ""
  parts : List String := []
deriving DecidableEq, Repr

namespace SourcePath

/-- The root at the start of a text. -/
def rootOf : List Char → String
  | '/' :: '/' :: '/' :: _ => "/"
  | '/' :: '/' :: _ => "//"
  | '/' :: _ => "/"
  | _ => ""

/-- Reads a path. -/
def ofText (text : String) : SourcePath where
  root := rootOf text.toList
  parts := (Text.split '/' text).filter fun part => part ≠ "" ∧ part ≠ "."

/-- The text of a path; a path without root and components is a dot. -/
def text (p : SourcePath) : String :=
  if p.root = "" ∧ p.parts = [] then "." else p.root ++ "/".intercalate p.parts

/-- The components, with the root as the first one; paths are ordered by them. -/
def components (p : SourcePath) : List String :=
  if p.root = "" then p.parts else p.root :: p.parts

/-- Whether a path holds a null character, which no file has in its name. -/
def hasNull (p : SourcePath) : Bool := p.text.toList.contains '\x00'

/-- The last component. -/
def name (p : SourcePath) : String := p.parts.getLast?.getD ""

/-- The path without its last component. -/
def parent (p : SourcePath) : SourcePath := ⟨p.root, p.parts.dropLast⟩

/-- The last dot of a name and what follows it, unless the dot is the first or the last
character. -/
def suffixOf (name : List Char) : List Char :=
  let tail := (name.reverse.takeWhile (· ≠ '.')).reverse
  if tail = [] ∨ name.length ≤ tail.length + 1 then [] else '.' :: tail

/-- The extension of a path, with its dot. -/
def suffix (p : SourcePath) : String := String.ofList (suffixOf p.name.toList)

/-- A path below another one; a path with a root stands by itself. -/
def join (p q : SourcePath) : SourcePath :=
  if q.root = "" then ⟨p.root, p.parts ++ q.parts⟩ else q

/-- Whether components come before others or are the same: the first difference decides, and what
is at an end comes first. -/
def precede : List String → List String → Bool
  | [], _ => true
  | _ :: _, [] => false
  | a :: as, b :: bs => a < b || (a = b && precede as bs)

/-- The order of paths. -/
def le (p q : SourcePath) : Bool := precede p.components q.components

/-- Paths in order, each once. -/
def sortedSet (paths : List SourcePath) : List SourcePath :=
  paths.eraseDups.mergeSort le

end SourcePath

end SingleUse
