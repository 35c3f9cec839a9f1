import SingleUse.View.Basic

/-!
# Summaries

A summary has one line for each file with findings, in the order of the paths, with the number
of findings, and names the files that could not be checked.
-/

namespace SingleUse.View

/-- The path of a finding, which has to be something that can be counted by. -/
def countedPath (item : Value) : Except Error (List (String × Value) × Value) := do
  let entries ← Page.entriesOf item
  let path := Page.pathOf entries
  if path.isAtom then return (entries, path) else throw .wrongKind

/-- The line of a file. -/
def fileLine (view : View) (width : Nat) (items : List (String × List (String × Value)))
    (path : String) : String :=
  let here := items.filter fun item => item.1 = path
  let fixable := (here.filter fun item => Page.isFixable item.2).length
  let label := view.truncate path (some (max 20 (view.width - 24)))
  "  " ++ Text.padEnd width label ++ "  " ++ Text.padStart 3 (toString here.length)
    ++ s!"  ({fixable} fixable)"

/-- The lines of the files with findings. -/
def fileLines (view : View) (items : List (String × List (String × Value))) : List String :=
  let paths := ((items.map (·.1)).eraseDups).mergeSort fun a b => a ≤ b
  if paths.isEmpty then []
  else
    let width := (paths.map (·.length)).foldl max 0
    "" :: paths.map (view.fileLine width items)

/-- The lines of the files that could not be checked. -/
def failureLines (view : View) (errors : List (List (String × Value))) : List String :=
  if errors.isEmpty then []
  else
    "" :: (view.symbols.checkFail ++ " " ++ Text.counted errors.length "file" ""
        ++ " could not be checked")
      :: errors.map fun error =>
        "  " ++ view.symbols.bullet ++ " " ++ (Page.entry error "path").display

/-- The summary of a page. -/
def summary (view : View) (page : Page) : Except Error String := do
  let counted ← (← page.items).mapM countedPath
  let items ← counted.mapM fun (item, path) => return (← Page.textOf path, item)
  let errors ← (← page.errors).mapM Page.entriesOf
  let fixable := (items.filter fun item => Page.isFixable item.2).length
  return "\n".intercalate (page.titleLines
    ++ ((page.files?.map fun files => "Files checked: " ++ files.display).toList)
    ++ [s!"Problems: {items.length} ({fixable} fixable)"]
    ++ view.fileLines items
    ++ view.failureLines errors
    ++ (if items.isEmpty && errors.isEmpty then
        ["", view.symbols.checkPass ++ " " ++ page.emptyMessage]
      else []))

end SingleUse.View
