import SingleUse.Text.Quoted
import SingleUse.Value

/-!
# JSON

Values written in JSON.  Only quotation marks, backslashes and control characters are escaped;
all other characters stand for themselves.  A value is written on one line or with every member
on a line of its own, indented by two blanks for each level.
-/

namespace SingleUse.Json

/-- How a character is written between quotation marks. -/
def escape (c : Char) : List Char :=
  if c = '"' ∨ c = '\\' then ['\\', c]
  else if c = '\n' then ['\\', 'n']
  else if c = '\r' then ['\\', 'r']
  else if c = '\t' then ['\\', 't']
  else if c = '\x08' then ['\\', 'b']
  else if c = '\x0c' then ['\\', 'f']
  else if c.toNat < 0x20 then ['\\', 'u'] ++ Text.hexDigits 4 c.toNat
  else [c]

/-- A text in quotation marks. -/
def quoted (text : String) : String :=
  String.ofList ('"' :: text.toList.flatMap escape ++ ['"'])

/-- How the members of lists and maps are set apart. -/
inductive Style where
  | compact
  | indented
deriving DecidableEq, Repr

/-- The start of a line at some level. -/
def lineStart (level : Nat) : String :=
  String.ofList ('\n' :: List.replicate (2 * level) ' ')

/-- Members between brackets, at a level. -/
def enclose (style : Style) (level : Nat) (left right : String) (members : List String) : String :=
  match style, members with
  | _, [] => left ++ right
  | .compact, members => left ++ ", ".intercalate members ++ right
  | .indented, members =>
    left ++ lineStart (level + 1) ++ ("," ++ lineStart (level + 1)).intercalate members
      ++ lineStart level ++ right

/-- A member of a map. -/
def member (key value : String) : String := quoted key ++ ": " ++ value

mutual

/-- A value at a level.  Edits are written as maps, exclusions and paths as texts. -/
def write (style : Style) (level : Nat) : Value → String
  | .null => "null"
  | .bool b => if b then "true" else "false"
  | .int n => toString n
  | .decimal d => d.text
  | .text s => quoted s
  | .list items => enclose style level "[" "]" (writeItems style (level + 1) items)
  | .map entries => enclose style level "\x7b" "\x7d" (writeEntries style (level + 1) entries)
  | .path s => quoted s
  | .edit e =>
    enclose style level "\x7b" "\x7d" [member "start" (toString e.range.start),
      member "end" (toString e.range.stop), member "text" (quoted e.text)]
  | .exclusion e => quoted e.name

/-- The items of a list. -/
def writeItems (style : Style) (level : Nat) : List Value → List String
  | [] => []
  | item :: rest => write style level item :: writeItems style level rest

/-- The entries of a map. -/
def writeEntries (style : Style) (level : Nat) : List (String × Value) → List String
  | [] => []
  | (key, value) :: rest => member key (write style level value) :: writeEntries style level rest

end

mutual

/-- A value without the entries of maps whose keys start with an underscore. -/
def stripped : Value → Value
  | .list items => .list (strippedItems items)
  | .map entries => .map (strippedEntries entries)
  | value => value

/-- The items of a list without such entries. -/
def strippedItems : List Value → List Value
  | [] => []
  | item :: rest => stripped item :: strippedItems rest

/-- The entries of a map without such entries. -/
def strippedEntries : List (String × Value) → List (String × Value)
  | [] => []
  | (key, value) :: rest =>
    if key.toList.head? = some '_' then strippedEntries rest
    else (key, stripped value) :: strippedEntries rest

end

end SingleUse.Json
