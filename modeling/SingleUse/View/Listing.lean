import SingleUse.View.Basic

/-!
# Listings

A listing has one line for each finding, under the path of its file, then the errors, then the
number of findings.
-/

namespace SingleUse.View

/-- The line of a finding. -/
def findingLine (view : View) (item : List (String × Value)) : String :=
  let position := (Page.entry item "line").display ++ ":" ++ (Page.entry item "column").display
  let message := ((Value.find? "message" item).getD (.text "")).display
  "  " ++ Text.padEnd 8 position ++ " " ++ message
    ++ if Page.isFixable item then "  " ++ view.symbols.fixable else ""

/-- The lines of the findings, where a path stands before the first finding of every run of
findings with that path, and an empty line after the last one.  `current` is the path of the
finding before. -/
def findingLines (view : View) (current : Option String) :
    List (String × List (String × Value)) → List String
  | [] => if current.isSome then [""] else []
  | (path, item) :: rest =>
    let heading :=
      if current = some path then []
      else if current.isSome then ["", path]
      else [path]
    heading ++ view.findingLine item :: view.findingLines (some path) rest

/-- The line of an error. -/
def errorLine (view : View) (error : List (String × Value)) : String :=
  let text := (Page.entry error "path").display ++ ": " ++ (Page.entry error "error").display
  view.symbols.checkFail ++ " " ++ view.truncate (Text.sanitize text) none

/-- The last line of a listing. -/
def closingLine (view : View) (page : Page) (items : List (List (String × Value))) : String :=
  if items.isEmpty then view.symbols.checkPass ++ " " ++ page.emptyMessage
  else
    let fixable := (items.filter Page.isFixable).length
    view.symbols.checkWarn ++ " " ++ Text.counted items.length "problem" ""
      ++ s!" ({fixable} fixable)"

/-- The listing of a page. -/
def listing (view : View) (page : Page) : Except Error String := do
  let items ← (← page.items).mapM Page.entriesOf
  let errors ← (← page.errors).mapM Page.entriesOf
  let paths ← items.mapM fun item => Page.textOf (Page.pathOf item)
  return "\n".intercalate (page.titleLines
    ++ view.findingLines none (paths.zip items)
    ++ errors.map view.errorLine ++ (if errors.isEmpty then [] else [""])
    ++ [view.closingLine page items])

end SingleUse.View
