import SingleUse.Error

/-!
# Encodings

An output stream has an encoding, and an encoding may lack characters.  A text that has some of
them is not written as it is: the symbols among them have spellings in ASCII, and any other one
becomes a question mark.
-/

namespace SingleUse

/-- The encodings of output streams. -/
inductive Encoding where
  | ascii | latin1 | utf8
deriving DecidableEq, Repr

namespace Encoding

/-- The name of an encoding. -/
def name : Encoding → String
  | ascii => "ascii"
  | latin1 => "latin-1"
  | utf8 => "utf-8"

/-- The names of an encoding in lowercase, without what divides their parts. -/
def aliases : Encoding → List String
  | ascii => ["ascii", "usascii", "646"]
  | latin1 => ["latin1", "latin", "l1", "iso88591", "iso8859", "88591"]
  | utf8 => ["utf8", "utf", "u8"]

/-- The encoding with a name, in lowercase or not. -/
def ofName? (name : String) : Option Encoding :=
  let plain := String.ofList (name.toList.filter Char.isAlphanum |>.map Char.toLower)
  [ascii, latin1, utf8].find? fun encoding => encoding.aliases.contains plain

/-- The number from which on an encoding has no characters. -/
def limit : Encoding → Nat
  | ascii => 0x80
  | latin1 => 0x100
  | utf8 => 0x110000

/-- Whether an encoding has a character. -/
def has (encoding : Encoding) (c : Char) : Bool := c.toNat < encoding.limit

/-- Whether an encoding has all characters of a text. -/
def hasAll (encoding : Encoding) (text : String) : Bool := text.toList.all encoding.has

/-- The first run of characters of a text that an encoding lacks. -/
def lack (encoding : Encoding) (text : String) : EncodeError :=
  let known := text.toList.takeWhile encoding.has
  let unknown := (text.toList.drop known.length).takeWhile fun c => !encoding.has c
  { encoding := encoding.name, text := text.toList, first := known.length
    last := known.length + unknown.length - 1, limit := encoding.limit }

/-- The spellings of symbols in ASCII. -/
def spellings : List (String × String) :=
  [("→", "->"), ("…", "..."), ("•", "*"), ("✓", "[OK]"), ("⚠", "[!]"), ("✗", "x"), ("├─", "+-"),
    ("└─", "+-")]

/-- A text with the symbols spelled in ASCII. -/
def spelled (text : String) : String :=
  spellings.foldl (fun text spelling => text.replace spelling.1 spelling.2) text

/-- A text as it is written: as it is, or with the symbols spelled, or besides with question
marks for the characters that the encoding lacks. -/
def written (encoding : Encoding) (text : String) : String :=
  if encoding.hasAll text then text
  else String.ofList ((spelled text).toList.map fun c => if encoding.has c then c else '?')

/-- What is written for a text and what follows it, which has to be in the encoding. -/
def print (encoding : Encoding) (text after : String) : Except Error String :=
  if encoding.hasAll after then .ok (encoding.written text ++ after)
  else .error (.encode (encoding.lack after))

end Encoding

end SingleUse
