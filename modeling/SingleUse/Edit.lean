import SingleUse.Tree.Basic

/-!
# Edits

An edit replaces a range of bytes by a text.  The ends of a range are offsets from the start of
the source or, if they are negative, from its end.  A *fix* is a list of edits that only make sense
together.  `Fix.applyAll` takes the fixes one after the other, keeps each that overlaps none of
those kept before, and carries out the edits of all that were kept in one sweep over the source;
the others are deferred.
-/

namespace SingleUse

/-- The place in a byte string that an offset means. -/
def Bytes.place (bytes : Bytes) (offset : Int) : Nat :=
  if offset < 0 then (bytes.length + offset).toNat else offset.toNat

/-- A half-open range of offsets. -/
structure ByteRange where
  start : Int
  stop : Int
deriving DecidableEq, Repr

/-- A span as a range of offsets from the start. -/
def Span.range (span : Span) : ByteRange := ⟨span.start, span.stop⟩

instance : Coe Span ByteRange := ⟨Span.range⟩

/-- Whether two ranges have a byte in common, for ranges that are not reversed and whose offsets
are from the start. -/
def ByteRange.overlaps (a b : ByteRange) : Bool := a.start < b.stop && b.start < a.stop

/-- The replacement of a range of bytes by a text. -/
structure Edit where
  range : ByteRange
  text : String
deriving DecidableEq, Repr

/-- Edits that belong together; those made for a binding are the removal of its declaration
and the substitution of its read. -/
structure Fix where
  name : String
  edits : List Edit
deriving DecidableEq, Repr

namespace Fix

/-- The first edit. -/
def removal? (fix : Fix) : Option Edit := fix.edits[0]?

/-- The second edit. -/
def substitution? (fix : Fix) : Option Edit := fix.edits[1]?

/-- Whether an edit of one fix overlaps one of the other. -/
def overlaps (a b : Fix) : Bool :=
  a.edits.any fun mine => b.edits.any fun theirs => mine.range.overlaps theirs.range

/-- Splits fixes into those that are applied and those that are deferred, where `kept` have
been applied before. -/
def sift (kept : List Fix) : List Fix → List Fix × List Fix
  | [] => ([], [])
  | fix :: rest =>
    if kept.any fix.overlaps then
      let (applied, deferred) := sift kept rest
      (applied, fix :: deferred)
    else
      let (applied, deferred) := sift (kept ++ [fix]) rest
      (fix :: applied, deferred)

/-- The source from `offset` on with edits carried out one after the other; each edit continues
where the one before it ended. -/
def splice (source : Bytes) (offset : Int) : List Edit → Bytes
  | [] => source.drop (source.place offset)
  | edit :: rest =>
    source.slice (source.place offset) (source.place edit.range.start) ++ Utf8.encode edit.text
      ++ splice source edit.range.stop rest

/-- Edits in the order of their starts; edits with the same start keep their order. -/
def inOrder (edits : List Edit) : List Edit :=
  edits.mergeSort fun a b => a.range.start ≤ b.range.start

/-- What becomes of a source and a list of fixes. -/
structure Outcome where
  source : Bytes
  applied : List Fix
  deferred : List Fix

/-- Applies as many fixes as possible in one sweep. -/
def applyAll (source : Bytes) (fixes : List Fix) : Outcome :=
  let (applied, deferred) := sift [] fixes
  ⟨splice source 0 (inOrder (applied.flatMap (·.edits))), applied, deferred⟩

end Fix

end SingleUse
