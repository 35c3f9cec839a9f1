import SingleUse.Diff.Matching
import SingleUse.Text.Lines

/-!
# Unified diffs

The differences between two texts, line by line.  Differences that are close to each other are
shown together, with three equal lines before and after them.  Lines are shown with their line
ends, so a last line without one runs into what follows.
-/

namespace SingleUse.Diff

/-- A part of the old lines, and the part of the new lines that stands in its place. -/
structure Chunk where
  same : Bool
  oldStart : Nat
  oldStop : Nat
  newStart : Nat
  newStop : Nat

/-- The chunks from two places on, by the common blocks. -/
def chunksFrom (old new oldEnd newEnd : Nat) : List Block → List Chunk
  | [] => if old < oldEnd ∨ new < newEnd then [⟨false, old, oldEnd, new, newEnd⟩] else []
  | block :: rest =>
    (if old < block.old ∨ new < block.new then [⟨false, old, block.old, new, block.new⟩] else [])
      ++ ⟨true, block.old, block.old + block.size, block.new, block.new + block.size⟩
      :: chunksFrom (block.old + block.size) (block.new + block.size) oldEnd newEnd rest

/-- The number of equal lines around differences. -/
def context : Nat := 3

namespace Chunk

/-- The end of a chunk of equal lines. -/
def tail (c : Chunk) : Chunk :=
  { c with
    oldStart := max c.oldStart (c.oldStop - context)
    newStart := max c.newStart (c.newStop - context) }

/-- The start of a chunk of equal lines. -/
def front (c : Chunk) : Chunk :=
  { c with
    oldStop := min c.oldStop (c.oldStart + context)
    newStop := min c.newStop (c.newStart + context) }

end Chunk

/-- The chunks with only the end of the first one, if its lines are equal. -/
def trimFirst : List Chunk → List Chunk
  | [] => []
  | c :: rest => (if c.same then c.tail else c) :: rest

/-- The chunks with only the start of the last one, if its lines are equal. -/
def trimLast : List Chunk → List Chunk
  | [] => []
  | [c] => [if c.same then c.front else c]
  | c :: rest => c :: trimLast rest

/-- Chunks that are shown together; a long chunk of equal lines is where they are parted. -/
def groupsFrom (current : List Chunk) : List Chunk → List (List Chunk)
  | [] => if current.all (·.same) && current.length ≤ 1 then [] else [current]
  | c :: rest =>
    if c.same && c.oldStop - c.oldStart > 2 * context then
      (current ++ [c.front]) :: groupsFrom [c.tail] rest
    else groupsFrom (current ++ [c]) rest

/-- The chunks of two sequences of lines that are shown together. -/
def groups (old new : List String) : List (List Chunk) :=
  groupsFrom [] (trimLast (trimFirst (chunksFrom 0 0 old.length new.length (matching old new))))

/-- Where some lines stand: the number of the first one and how many there are.  No lines stand
after the line before them. -/
def rangeText (start stop : Nat) : String :=
  if stop - start = 1 then toString (start + 1)
  else if stop - start = 0 then s!"{start},0"
  else s!"{start + 1},{stop - start}"

/-- Some of the lines, each with a mark before it. -/
def marked (mark : String) (lines : List String) (start stop : Nat) : List String :=
  ((lines.take stop).drop start).map (mark ++ ·)

/-- The lines of a chunk. -/
def chunkLines (old new : List String) (c : Chunk) : List String :=
  if c.same then marked " " old c.oldStart c.oldStop
  else marked "-" old c.oldStart c.oldStop ++ marked "+" new c.newStart c.newStop

/-- The lines of a group of chunks. -/
def groupLines (old new : List String) (group : List Chunk) : List String :=
  match group.head?, group.getLast? with
  | some first, some last =>
    let oldRange := rangeText first.oldStart last.oldStop
    let newRange := rangeText first.newStart last.newStop
    s!"@@ -{oldRange} +{newRange} @@\n" :: group.flatMap (chunkLines old new)
  | _, _ => []

/-- The differences between two texts of a file; nothing if there are none. -/
def unified (path before after : String) : String :=
  let old := Text.lines before
  let new := Text.lines after
  match groups old new with
  | [] => ""
  | found =>
    String.join (s!"--- a/{path}\n" :: s!"+++ b/{path}\n" :: found.flatMap (groupLines old new))

end SingleUse.Diff
