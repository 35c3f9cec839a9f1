import SingleUse.Text.Case
import SingleUse.Value

/-!
# Symbols

The marks in reports come in two sets, one of them in ASCII only.  Which of them is used is a
setting; if it leaves the choice open, the terminal decides.
-/

namespace SingleUse

/-- A set of marks. -/
structure Symbols where
  checkPass : String
  checkWarn : String
  checkFail : String
  fixable : String
  arrow : String
  treeBranch : String
  treeEnd : String
  bullet : String
  ellipsis : String
deriving DecidableEq, Repr

/-- What is known of the terminal. -/
structure Terminal where
  /-- The variables of the environment. -/
  environment : List (String × String) := []
  /-- The name of the encoding of the output, if it has one. -/
  encoding : Option String := some "utf-8"

namespace Terminal

/-- The value of a variable, empty if it is not set. -/
def variableOf (terminal : Terminal) (name : String) : String :=
  ((terminal.environment.find? fun entry => entry.1 = name).map (·.2)).getD ""

/-- Whether a variable says yes. -/
def isOn (terminal : Terminal) (name : String) : Bool :=
  ["1", "true", "yes"].contains (Text.lower (terminal.variableOf name))

/-- Whether some characters stand one after the other among others. -/
def occursIn (part : List Char) : List Char → Bool
  | [] => part.isEmpty
  | c :: rest => part.isPrefixOf (c :: rest) || occursIn part rest

/-- Whether a text occurs in another one. -/
def occurs (part text : String) : Bool := occursIn part.toList text.toList

/-- The name of an encoding in lowercase, without hyphens and underscores. -/
def plainName (encoding : String) : String :=
  String.ofList ((Text.lower encoding).toList.filter fun c => c ≠ '-' ∧ c ≠ '_')

/-- What the encoding of the output says about symbols outside of ASCII. -/
def encodingVerdict (terminal : Terminal) : Option Bool :=
  (terminal.encoding.filter (· ≠ "")).bind fun encoding =>
    let name := plainName encoding
    if "cp".toList.isPrefixOf name.toList || ["ascii", "latin1", "iso88591"].contains name then
      some false
    else if occurs "utf" name then some true
    else none

/-- Whether a variable names a locale with all characters. -/
def isWideLocale (terminal : Terminal) (name : String) : Bool :=
  let locale := Text.lower (terminal.variableOf name)
  occurs "utf-8" locale || occurs "utf8" locale

/-- Whether the terminal shows symbols outside of ASCII.  Two variables decide the question;
otherwise the encoding of the output does, and then the locale. -/
def supportsUnicode (terminal : Terminal) : Bool :=
  if terminal.isOn "ONETIME_ASCII_ONLY" then false
  else if terminal.isOn "ONETIME_UNICODE" then true
  else
    match terminal.encodingVerdict with
    | some verdict => verdict
    | none => terminal.isWideLocale "LANG" || terminal.isWideLocale "LC_ALL"

end Terminal

namespace Symbols

/-- The marks outside of ASCII. -/
def unicode : Symbols where
  checkPass := "✓"
  checkWarn := "⚠"
  checkFail := "✗"
  fixable := "⚒"
  arrow := "→"
  treeBranch := "├─"
  treeEnd := "└─"
  bullet := "•"
  ellipsis := "…"

/-- The marks in ASCII. -/
def ascii : Symbols where
  checkPass := "[OK]"
  checkWarn := "[!]"
  checkFail := "[ERR]"
  fixable := "[fix]"
  arrow := "->"
  treeBranch := "+-"
  treeEnd := "+-"
  bullet := "*"
  ellipsis := "..."

/-- The marks that a setting asks for; any other setting leaves the choice to the terminal. -/
def choose (preference : Value) (terminal : Terminal) : Symbols :=
  match preference with
  | .text "unicode" => unicode
  | .text "ascii" => ascii
  | _ => if terminal.supportsUnicode then unicode else ascii

end Symbols

/-- A text without control characters, apart from tabs and the ends of lines. -/
def Text.sanitize (text : String) : String :=
  String.ofList (text.toList.filter fun c => 0x20 ≤ c.toNat || ['\t', '\n', '\r'].contains c)

end SingleUse
