import SingleUse.Symbols
import SingleUse.Error

/-!
# Views

A *page* is what is shown: findings and errors, usually as a map with the entries `items`,
`errors` and `files`.  A *view* is how it is shown: with which symbols, how wide, and whether
long texts are cut.
-/

namespace SingleUse

/-- What is shown. -/
structure Page where
  data : Value
  title : Option String := none
  /-- What is said when there are no findings. -/
  emptyMessage : String := "No single-use variables found."

/-- How a page is shown. -/
structure View where
  symbols : Symbols := .ascii
  width : Int := 80
  /-- Whether long texts are shown in full. -/
  full : Bool := false

namespace Page

/-- What a value holds. -/
def contents (value : Value) : Except Error (List Value) :=
  match value.contents? with
  | some items => .ok items
  | none => .error .wrongKind

/-- The value under a key, null if there is none. -/
def entry (entries : List (String × Value)) (key : String) : Value :=
  (Value.find? key entries).getD .null

/-- The findings: those of the map, or the list itself. -/
def items (page : Page) : Except Error (List Value) :=
  match page.data with
  | .list items => .ok items
  | .map entries => contents (entry entries "items")
  | _ => .ok []

/-- The errors of the map. -/
def errors (page : Page) : Except Error (List Value) :=
  match page.data with
  | .map entries => contents (entry entries "errors")
  | _ => .ok []

/-- The number of files, whatever it is. -/
def files? (page : Page) : Option Value :=
  match page.data with
  | .map entries => (Value.find? "files" entries).filter fun | .null => false | _ => true
  | _ => none

/-- The lines of the title. -/
def titleLines (page : Page) : List String :=
  match page.title.filter (· ≠ "") with
  | some title => [title, ""]
  | none => []

/-- The entries of a finding or an error. -/
def entriesOf : Value → Except Error (List (String × Value))
  | .map entries => .ok entries
  | _ => .error .noMember

/-- The path of a finding; one without a path is in an unnamed source. -/
def pathOf (item : List (String × Value)) : Value :=
  let path := entry item "path"
  if path.truthy then path else .text "<source>"

/-- A path that is a text. -/
def textOf : Value → Except Error String
  | .text s => .ok s
  | _ => .error .wrongKind

/-- Whether a finding can be fixed. -/
def isFixable (item : List (String × Value)) : Bool := (entry item "fixable").truthy

end Page

/-- A text filled up with blanks at its end. -/
def Text.padEnd (width : Nat) (text : String) : String :=
  String.ofList (text.toList ++ List.replicate (width - text.length) ' ')

/-- A text filled up with blanks at its start. -/
def Text.padStart (width : Nat) (text : String) : String :=
  String.ofList (List.replicate (width - text.length) ' ' ++ text.toList)

namespace View

/-- The first so many characters of a text; a negative number counts from the end. -/
def firstChars (text : String) (length : Int) : String :=
  let count := if length < 0 then length + text.length else length
  String.ofList (text.toList.take count.toNat)

/-- A text cut to a length; what is cut off is marked if there is room for the mark. -/
def cut (view : View) (text : String) (length : Int) : String :=
  let mark := view.symbols.ellipsis
  if view.full || text.length ≤ length then text
  else if length ≤ mark.length then firstChars text length
  else firstChars text (length - mark.length) ++ mark

/-- A text cut to a length, or to the width of the view less a margin. -/
def truncate (view : View) (text : String) (length : Option Int) : String :=
  if text = "" then "" else view.cut text (length.getD (max 20 (view.width - 10)))

end View

/-- A count with its noun. -/
def Text.counted (count : Int) (singular : String) (plural : String) : String :=
  let noun := if count = 1 then singular else if plural = "" then singular ++ "s" else plural
  s!"{count} {noun}"

end SingleUse
