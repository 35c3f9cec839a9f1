import SingleUse.Text.Digit
import SingleUse.Value

/-!
# Reading JSON

The values that texts in JSON write, blanks between the parts left aside.  Of escapes by number
those of single characters are read, and numbers are whole or decimal fractions without an
exponent.  A text that writes nothing, or something more than a value, is not read.
-/

namespace SingleUse.Json

/-- Whether a character may stand between the parts of a text. -/
def isGap (c : Char) : Bool := c = ' ' || c = '\t' || c = '\n' || c = '\r'

/-- What follows the blanks at the start. -/
def skipGap (text : List Char) : List Char := text.dropWhile isGap

/-- The value of a hexadecimal digit. -/
def hexValue? (c : Char) : Option Nat :=
  if '0' ≤ c ∧ c ≤ '9' then some (c.toNat - '0'.toNat)
  else if 'a' ≤ c ∧ c ≤ 'f' then some (c.toNat - 'a'.toNat + 10)
  else if 'A' ≤ c ∧ c ≤ 'F' then some (c.toNat - 'A'.toNat + 10)
  else none

/-- The character that a number stands for. -/
def charOf? (n : Nat) : Option Char := if n.isValidChar then some (Char.ofNat n) else none

/-- The character that four hexadecimal digits stand for. -/
def hexChar? (digits : List Char) : Option Char := do
  charOf? ((← digits.mapM hexValue?).foldl (fun value digit => value * 16 + digit) 0)

/-- The character that a letter after a backslash stands for. -/
def unescape? : Char → Option Char
  | '"' => some '"'
  | '\\' => some '\\'
  | '/' => some '/'
  | 'n' => some '\n'
  | 'r' => some '\r'
  | 't' => some '\t'
  | 'b' => some '\x08'
  | 'f' => some '\x0c'
  | _ => none

/-- The characters up to the closing quotation mark, and what follows it. -/
def readQuoted : List Char → Option (List Char × List Char)
  | [] => none
  | '"' :: rest => some ([], rest)
  | '\\' :: 'u' :: a :: b :: c :: d :: rest => do
    let first ← hexChar? [a, b, c, d]
    let (chars, rest) ← readQuoted rest
    return (first :: chars, rest)
  | '\\' :: c :: rest => do
    let first ← unescape? c
    let (chars, rest) ← readQuoted rest
    return (first :: chars, rest)
  | c :: rest => do
    let (chars, rest) ← readQuoted rest
    return (c :: chars, rest)

/-- The number that decimal digits write. -/
def decimalValue (digits : List Char) : Int :=
  digits.foldl (fun (value : Int) c => value * 10 + (c.toNat - '0'.toNat)) 0

/-- A number without sign, and what follows it. -/
def readUnsigned (text : List Char) : Option (Value × List Char) :=
  let whole := text.takeWhile Char.isDigit
  if whole.isEmpty then none
  else
    match text.drop whole.length with
    | '.' :: rest =>
      let fraction := rest.takeWhile Char.isDigit
      if fraction.isEmpty then none
      else
        some (.decimal ⟨decimalValue (whole ++ fraction), fraction.length⟩,
          rest.drop fraction.length)
    | rest => some (.int (decimalValue whole), rest)

/-- A number with the other sign. -/
def negate : Value → Value
  | .int n => .int (-n)
  | .decimal d => .decimal ⟨-d.mantissa, d.places⟩
  | value => value

mutual

/-- A value at the start of a text, and what follows it.  No more than `n` values, items and
entries lie within each other or follow each other. -/
def readValue : Nat → List Char → Option (Value × List Char)
  | 0, _ => none
  | n + 1, text =>
    match skipGap text with
    | 'n' :: 'u' :: 'l' :: 'l' :: rest => some (.null, rest)
    | 't' :: 'r' :: 'u' :: 'e' :: rest => some (.bool true, rest)
    | 'f' :: 'a' :: 'l' :: 's' :: 'e' :: rest => some (.bool false, rest)
    | '"' :: rest => (readQuoted rest).map fun (chars, rest) => (.text (String.ofList chars), rest)
    | '[' :: rest =>
      match skipGap rest with
      | ']' :: rest => some (.list [], rest)
      | rest => (readItems n rest).map fun (items, rest) => (.list items, rest)
    | '{' :: rest =>
      match skipGap rest with
      | '}' :: rest => some (.map [], rest)
      | rest =>
        (readEntries n rest).map fun (entries, rest) => (.map (Value.ofEntries entries), rest)
    | '-' :: rest => (readUnsigned rest).map fun (value, rest) => (negate value, rest)
    | rest => readUnsigned rest

/-- The items up to the closing bracket, of which there is at least one. -/
def readItems : Nat → List Char → Option (List Value × List Char)
  | 0, _ => none
  | n + 1, text => do
    let (item, rest) ← readValue n text
    match skipGap rest with
    | ',' :: rest =>
      let (items, rest) ← readItems n rest
      return (item :: items, rest)
    | ']' :: rest => return ([item], rest)
    | _ => none

/-- The entries up to the closing brace, of which there is at least one. -/
def readEntries : Nat → List Char → Option (List (String × Value) × List Char)
  | 0, _ => none
  | n + 1, text =>
    match skipGap text with
    | '"' :: text => do
      let (key, rest) ← readQuoted text
      match skipGap rest with
      | ':' :: rest =>
        let (value, rest) ← readValue n rest
        let entry := (String.ofList key, value)
        match skipGap rest with
        | ',' :: rest =>
          let (entries, rest) ← readEntries n rest
          return (entry :: entries, rest)
        | '}' :: rest => return ([entry], rest)
        | _ => none
      | _ => none
    | _ => none

end

/-- The value that a text writes.  Every value, item and entry takes at least one character, so
that the length of the text bounds their number. -/
def read? (text : String) : Option Value := do
  let (value, rest) ← readValue (text.length + 1) text.toList
  if (skipGap rest).isEmpty then some value else none

end SingleUse.Json
