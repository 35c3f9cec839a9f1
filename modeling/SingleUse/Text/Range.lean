/-!
# Ranges of characters

The tables of character properties are lists of ranges.  Letters of two cases often alternate,
so a range may take every second character.
-/

namespace SingleUse.Text

/-- Every `step`-th code point from `first` to `last`. -/
structure CharRange where
  first : Nat
  last : Nat
  step : Nat := 1

/-- Whether a character lies in a range. -/
def CharRange.contains (range : CharRange) (c : Char) : Bool :=
  range.first ≤ c.toNat && c.toNat ≤ range.last && (c.toNat - range.first) % range.step == 0

/-- Whether a character lies in one of several ranges. -/
def inRanges (ranges : List CharRange) (c : Char) : Bool :=
  ranges.any (·.contains c)

end SingleUse.Text
