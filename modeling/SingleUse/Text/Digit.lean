import SingleUse.Text.Blank
import SingleUse.Text.Quoted

/-!
# Digits

The decimal digits of all scripts, after the tables of Unicode 14, and the reading of whole
numbers.  Superscripts, circled digits and the like are digits too, but no number is written
with them.
-/

namespace SingleUse.Text

/-- The zeros; the nine other decimal digits follow each of them. -/
def zeros : List Nat := [
    0x30, 0x660, 0x6F0, 0x7C0, 0x966, 0x9E6, 0xA66, 0xAE6, 0xB66, 0xBE6, 0xC66, 0xCE6, 0xD66,
    0xDE6, 0xE50, 0xED0, 0xF20, 0x1040, 0x1090, 0x17E0, 0x1810, 0x1946, 0x19D0, 0x1A80, 0x1A90,
    0x1B50, 0x1BB0, 0x1C40, 0x1C50, 0xA620, 0xA8D0, 0xA900, 0xA9D0, 0xA9F0, 0xAA50, 0xABF0,
    0xFF10, 0x104A0, 0x10D30, 0x11066, 0x110F0, 0x11136, 0x111D0, 0x112F0, 0x11450, 0x114D0,
    0x11650, 0x116C0, 0x11730, 0x118E0, 0x11950, 0x11C50, 0x11D50, 0x11DA0, 0x16A60, 0x16AC0,
    0x16B50, 0x1D7CE, 0x1D7D8, 0x1D7E2, 0x1D7EC, 0x1D7F6, 0x1E140, 0x1E2F0, 0x1E950, 0x1FBF0]

/-- The digits that are not decimal. -/
def decoratedDigits : List CharRange := [
    ⟨0xB2, 0xB3, 1⟩, ⟨0xB9, 0xB9, 1⟩, ⟨0x1369, 0x1371, 1⟩, ⟨0x19DA, 0x19DA, 1⟩,
    ⟨0x2070, 0x2070, 1⟩, ⟨0x2074, 0x2079, 1⟩, ⟨0x2080, 0x2089, 1⟩, ⟨0x2460, 0x2468, 1⟩,
    ⟨0x2474, 0x247C, 1⟩, ⟨0x2488, 0x2490, 1⟩, ⟨0x24EA, 0x24EA, 1⟩, ⟨0x24F5, 0x24FD, 1⟩,
    ⟨0x24FF, 0x24FF, 1⟩, ⟨0x2776, 0x277E, 1⟩, ⟨0x2780, 0x2788, 1⟩, ⟨0x278A, 0x2792, 1⟩,
    ⟨0x10A40, 0x10A43, 1⟩, ⟨0x10E60, 0x10E68, 1⟩, ⟨0x11052, 0x1105A, 1⟩, ⟨0x1F100, 0x1F10A, 1⟩]

/-- The value of a decimal digit. -/
def digitValue? (c : Char) : Option Nat :=
  (zeros.find? fun first => first ≤ c.toNat && c.toNat < first + 10).map (c.toNat - ·)

/-- Whether a character is a digit, decimal or not. -/
def isDigit (c : Char) : Bool := (digitValue? c).isSome || inRanges decoratedDigits c

/-- Whether a text is one or more digits. -/
def isDigits (text : String) : Bool := !text.isEmpty && text.toList.all isDigit

/-- The number that decimal digits write, where single underscores may stand between them and
`value` stands for the digits before.  `fresh` says that the last character was an underscore
or that there is none yet. -/
def readDigits (value : Nat) (fresh : Bool) : List Char → Option Nat
  | [] => if fresh then none else some value
  | '_' :: rest => if fresh then none else readDigits value true rest
  | c :: rest => (digitValue? c).bind fun digit => readDigits (value * 10 + digit) false rest

/-- The most digits of a number that is read from a text. -/
def maxDigits : Nat := 4300

/-- Why a text is not read as a whole number. -/
inductive NumberFault where
  /-- It does not write one. -/
  | malformed (text : String)
  /-- It has too many digits. -/
  | tooLong (digits : Nat)
deriving DecidableEq, Repr

/-- The wording of a fault. -/
def NumberFault.message : NumberFault → String
  | malformed text =>
    "invalid literal for int() with base 10: " ++ String.ofList ((quote text).toList.take 200)
  | tooLong digits =>
    s!"Exceeds the limit ({maxDigits} digits) for integer string conversion: value has "
      ++ s!"{digits} digits; use sys.set_int_max_str_digits() to increase the limit"

/-- Whether a character may stand around a number: a blank that is no separator of records. -/
def isPadding (c : Char) : Bool := isBlank c && !(0x1c ≤ c.toNat && c.toNat ≤ 0x1f)

/-- The whole number that a text writes, with blanks around it and a sign before it or not.  The
digits are counted before what follows them is looked at. -/
def readInt (text : String) : Except NumberFault Int :=
  let bare := ((text.toList.dropWhile isPadding).reverse.dropWhile isPadding).reverse
  let (sign, digits) : Int × List Char := match bare with
    | '-' :: rest => (-1, rest)
    | '+' :: rest => (1, rest)
    | rest => (1, rest)
  let number := digits.takeWhile fun c => c = '_' || (digitValue? c).isSome
  match readDigits 0 true number with
  | none => .error (.malformed text)
  | some value =>
    let count := (number.filter (· != '_')).length
    if count > maxDigits then .error (.tooLong count)
    else if number.length < digits.length then .error (.malformed text)
    else .ok (sign * value)

end SingleUse.Text
