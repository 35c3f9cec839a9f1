/-!
# Splitting

A text is split at every occurrence of a character, or only at the first one.
-/

namespace SingleUse.Text

/-- The pieces between the occurrences of a character; there is always at least one. -/
def pieces (mark : Char) : List Char → List (List Char)
  | [] => [[]]
  | c :: rest =>
    match pieces mark rest with
    | [] => [[c]]
    | piece :: more => if c = mark then [] :: piece :: more else (c :: piece) :: more

/-- The pieces of a text between the occurrences of a character. -/
def split (mark : Char) (text : String) : List String :=
  (pieces mark text.toList).map String.ofList

/-- What stands before and after the first occurrence of a character, if there is one. -/
def cutAt? (mark : Char) (text : String) : Option (String × String) :=
  let before := text.toList.takeWhile (· ≠ mark)
  match text.toList.drop before.length with
  | [] => none
  | _ :: after => some (String.ofList before, String.ofList after)

end SingleUse.Text
