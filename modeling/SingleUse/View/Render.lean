import SingleUse.Json
import SingleUse.View.Listing
import SingleUse.View.Summary

/-!
# Rendering

A page is rendered in one of three formats.
-/

namespace SingleUse

/-- The formats of pages. -/
inductive Format where
  | list | summary | json
deriving DecidableEq, Repr

namespace Format

/-- The name of a format. -/
def name : Format → String
  | list => "list"
  | summary => "summary"
  | json => "json"

/-- Every format once. -/
def all : List Format := [list, summary, json]

/-- The format that a value names. -/
def ofValue (value : Value) : Except Error Format :=
  if !value.isAtom then .error .wrongKind
  else
    match all.find? fun format => value.sameMember (.text format.name) with
    | some format => .ok format
    | none => .error (.unknownFormat value.display (all.map name))

end Format

namespace View

/-- A page as data. -/
def json (page : Page) (style : Json.Style) : String :=
  let data := Json.stripped page.data
  Json.write style 0 (match page.title.filter (· ≠ "") with
    | some title => .map [("title", .text title), ("data", data)]
    | none => data)

/-- A page in a format. -/
def render (view : View) (page : Page) : Format → Except Error String
  | .list => view.listing page
  | .summary => view.summary page
  | .json => .ok (json page .indented)

end View

end SingleUse
