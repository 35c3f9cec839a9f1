import SingleUse.Text.Range

/-!
# Blanks

The blank characters of a text: the white space of Unicode together with the four information
separators.  Zero-width characters are no blanks.  Byte strings know only the six blanks of
ASCII.
-/

namespace SingleUse

namespace Text

/-- The blank characters. -/
def blankRanges : List CharRange := [
    ⟨0x9, 0xD, 1⟩, ⟨0x1C, 0x20, 1⟩, ⟨0x85, 0x85, 1⟩, ⟨0xA0, 0xA0, 1⟩, ⟨0x1680, 0x1680, 1⟩,
    ⟨0x2000, 0x200A, 1⟩, ⟨0x2028, 0x2029, 1⟩, ⟨0x202F, 0x202F, 1⟩, ⟨0x205F, 0x205F, 1⟩,
    ⟨0x3000, 0x3000, 1⟩]

/-- Whether a character is blank. -/
def isBlank (c : Char) : Bool := inRanges blankRanges c

/-- A text without the blanks at its start. -/
def trimStart (text : String) : String := String.ofList (text.toList.dropWhile isBlank)

/-- A text without the blanks at its end. -/
def trimEnd (text : String) : String :=
  String.ofList (text.toList.reverse.dropWhile isBlank).reverse

/-- A text without the blanks at both ends. -/
def trim (text : String) : String := trimEnd (trimStart text)

end Text

/-- Whether a byte is a blank of ASCII. -/
def isBlankByte (byte : UInt8) : Bool :=
  byte == 0x20 || (0x09 ≤ byte && byte ≤ 0x0D)

end SingleUse
