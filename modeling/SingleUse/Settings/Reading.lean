import SingleUse.Error
import SingleUse.Text.Case
import SingleUse.Text.Split
import SingleUse.Value

/-!
# Reading values

A setting that is given on the command line is a text.  It is read as a truth value, a whole
number, a list of the texts between its commas, or the text itself.
-/

namespace SingleUse.Reading

/-- The words for true. -/
def trueWords : List String := ["true", "yes", "on"]

/-- The words for false. -/
def falseWords : List String := ["false", "no", "off"]

/-- The texts between the commas of a text, without blanks around them and without the empty
ones. -/
def names (raw : String) : List String :=
  ((Text.split ',' raw).map Text.trim).filter (· ≠ "")

/-- The value that a text stands for. -/
def value (raw : String) : Except Error Value :=
  let word := Text.lower (Text.trim raw)
  if trueWords.contains word then .ok (.bool true)
  else if falseWords.contains word then .ok (.bool false)
  else if Text.isDigits word then
    match Text.readInt word with
    | .ok n => .ok (.int n)
    | .error fault => .error (.number fault)
  else if raw.toList.contains ',' then .ok (.list ((names raw).map .text))
  else .ok (.text (Text.trim raw))

/-- A value as a list of names: a list is one already, any other value is a single name, or none
if it does not count as true. -/
def asNames : Value → Value
  | .list items => .list items
  | value => .list (if value.truthy then [.text value.display] else [])

/-- A value as a list of patterns: a list is one already, any other value is a single one. -/
def asPatterns : Value → List Value
  | .list items => items
  | value => [.text value.display]

end SingleUse.Reading
