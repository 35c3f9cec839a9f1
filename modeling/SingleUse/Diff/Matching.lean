/-!
# Matching lines

Two sequences of lines are compared by their longest common block, and then by the longest common
blocks before and after it, and so on.  Among blocks of the same length the first one in the old
sequence is taken, and of those the first one in the new sequence.  In a long new sequence lines
that occur often do not start a block, although they may extend one.
-/

namespace SingleUse.Diff

/-- A part of the old lines and a part of the new ones. -/
structure Window where
  oldStart : Nat
  oldStop : Nat
  newStart : Nat
  newStop : Nat

/-- A block of lines that both sequences have. -/
structure Block where
  old : Nat
  new : Nat
  size : Nat
deriving DecidableEq, Repr

/-- The number of new lines from which on frequent lines are left out. -/
def longSequence : Nat := 200

/-- The places of a line among the new lines; none if it is frequent in a long sequence. -/
def places (lines : List String) (line : String) : List Nat :=
  let found := lines.zipIdx.filterMap fun (other, i) => if other = line then some i else none
  if longSequence ≤ lines.length ∧ lines.length / 100 + 1 < found.length then [] else found

/-- Two sequences of lines, with the places of the old lines among the new ones. -/
structure Pairing where
  old : Array String
  new : Array String
  spots : Array (List Nat)

/-- The pairing of two sequences of lines. -/
def Pairing.ofLines (old new : List String) : Pairing where
  old := old.toArray
  new := new.toArray
  spots := (old.map (places new)).toArray

namespace Pairing

/-- The search for the longest block: the lengths of the blocks that end in the old line before,
by the place just after them in the new sequence, and the best block so far. -/
structure Search where
  runs : List (Nat × Nat)
  best : Block

/-- The search after an old line that has a copy at a place. -/
def Search.extend (before : List (Nat × Nat)) (i : Nat) (state : Search) (j : Nat) : Search :=
  let size := (before.lookup j).getD 0 + 1
  { runs := state.runs ++ [(j + 1, size)]
    best := if state.best.size < size then ⟨i + 1 - size, j + 1 - size, size⟩ else state.best }

/-- The search after an old line. -/
def step (p : Pairing) (w : Window) (state : Search) (i : Nat) : Search :=
  let spots := ((p.spots[i]?).getD []).filter fun j => w.newStart ≤ j ∧ j < w.newStop
  spots.foldl (Search.extend state.runs i) { state with runs := [] }

/-- The longest block that starts in lines that are not left out. -/
def seed (p : Pairing) (w : Window) : Block :=
  ((List.range' w.oldStart (w.oldStop - w.oldStart)).foldl (p.step w)
    ⟨[], ⟨w.oldStart, w.newStart, 0⟩⟩).best

/-- How many of the lines before two places are equal, up to a bound. -/
def equalBefore (p : Pairing) (old new : Nat) : Nat → Nat
  | 0 => 0
  | bound + 1 =>
    if p.old[old - 1]? = p.new[new - 1]? then p.equalBefore (old - 1) (new - 1) bound + 1 else 0

/-- How many of the lines from two places on are equal, up to a bound. -/
def equalFrom (p : Pairing) (old new : Nat) : Nat → Nat
  | 0 => 0
  | bound + 1 =>
    if p.old[old]? = p.new[new]? then p.equalFrom (old + 1) (new + 1) bound + 1 else 0

/-- The longest block of a window, extended by equal lines on both sides. -/
def longest (p : Pairing) (w : Window) : Block :=
  let block := p.seed w
  let before := p.equalBefore block.old block.new
    (min (block.old - w.oldStart) (block.new - w.newStart))
  let old := block.old + block.size
  let new := block.new + block.size
  let after := p.equalFrom old new (min (w.oldStop - old) (w.newStop - new))
  ⟨block.old - before, block.new - before, before + block.size + after⟩

/-- The common blocks of a window in order.  The longest block lies within the window, which is
what the test says. -/
def blocks (p : Pairing) (w : Window) : List Block :=
  match p.longest w with
  | ⟨old, new, size⟩ =>
    if _h : 0 < size ∧ w.oldStart ≤ old ∧ old + size ≤ w.oldStop then
      p.blocks ⟨w.oldStart, old, w.newStart, new⟩
        ++ ⟨old, new, size⟩ :: p.blocks ⟨old + size, w.oldStop, new + size, w.newStop⟩
    else []
termination_by w.oldStop - w.oldStart
decreasing_by all_goals omega

end Pairing

/-- Joins blocks that touch in both sequences; `last` is the block before. -/
def joinFrom (last : Block) : List Block → List Block
  | [] => [last]
  | block :: rest =>
    if last.old + last.size = block.old ∧ last.new + last.size = block.new then
      joinFrom { last with size := last.size + block.size } rest
    else last :: joinFrom block rest

/-- The common blocks of two sequences of lines in order, none touching the next. -/
def matching (old new : List String) : List Block :=
  match (Pairing.ofLines old new).blocks ⟨0, old.length, 0, new.length⟩ with
  | [] => []
  | block :: rest => joinFrom block rest

end SingleUse.Diff
