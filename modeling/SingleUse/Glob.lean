/-!
# Globs

Patterns for whole texts: `*` stands for any characters, `?` for any one character, `[...]` for
one of the characters listed and `[!...]` for one that is not listed.  Slashes and leading dots
are characters like all others.  A list may hold ranges `a-z`; a bracket that is not closed
stands for itself.
-/

namespace SingleUse.Glob

/-- One place of a list of characters. -/
inductive Item where
  | one (c : Char)
  | range (first last : Char)

/-- Whether a character stands at a place of a list. -/
def Item.covers : Item → Char → Bool
  | .one d, c => d = c
  | .range first last, c => first ≤ c && c ≤ last

/-- One element of a pattern. -/
inductive Element where
  | star
  | any
  | char (c : Char)
  | oneOf (negated : Bool) (items : List Item)

/-- The places of the list between brackets.  A hyphen at the start or at the end, and one
right after a range, stands for itself; a range from a later to an earlier character is
left out. -/
def items : List Char → List Item
  | first :: '-' :: last :: rest =>
    if first ≤ last then .range first last :: items rest else items rest
  | c :: rest => .one c :: items rest
  | [] => []

/-- What stands before the closing bracket and what comes after it; a bracket right at the start
does not close. -/
def bracketBody (text : List Char) : Option (List Char × List Char) :=
  let (bang, body) := match text with
    | '!' :: rest => (['!'], rest)
    | rest => ([], rest)
  let (first, body) := match body with
    | ']' :: rest => ([']'], rest)
    | rest => ([], rest)
  match body.dropWhile (· ≠ ']') with
  | [] => none
  | _ :: after => some (bang ++ first ++ body.takeWhile (· ≠ ']'), after)

/-- The element that a bracket body writes.  An exclamation mark negates if it is first once the
empty ranges are left out; what a range from it on then still holds are a hyphen and the end of
the range. -/
def ofBody (body : List Char) : Element :=
  let list : List Item := match body with
    | '!' :: rest => .one '!' :: items rest
    | body => items body
  match list with
  | .one '!' :: rest => .oneOf true rest
  | .range '!' last :: rest => .oneOf true (.one '-' :: .one last :: rest)
  | list => .oneOf false list

/-- Reads a pattern, with at most `n` elements. -/
def parseUpTo : Nat → List Char → List Element
  | 0, _ => []
  | _, [] => []
  | n + 1, '*' :: rest => .star :: parseUpTo n rest
  | n + 1, '?' :: rest => .any :: parseUpTo n rest
  | n + 1, '[' :: rest =>
    match bracketBody rest with
    | some (body, after) => ofBody body :: parseUpTo n after
    | none => .char '[' :: parseUpTo n rest
  | n + 1, c :: rest => .char c :: parseUpTo n rest

/-- Reads a pattern; every element takes at least one character. -/
def parse (pattern : String) : List Element := parseUpTo pattern.length pattern.toList

/-- Whether an element other than a star takes a character. -/
def Element.accepts : Element → Char → Bool
  | .star, _ => false
  | .any, _ => true
  | .char d, c => d = c
  | .oneOf negated list, c => (list.any (·.covers c)) != negated

/-- Whether elements take a whole text. -/
def takes : List Element → List Char → Bool
  | [], text => text.isEmpty
  | .star :: rest, [] => takes rest []
  | .star :: rest, c :: text => takes rest (c :: text) || takes (.star :: rest) text
  | element :: rest, c :: text => element.accepts c && takes rest text
  | _ :: _, [] => false
termination_by elements text => elements.length + text.length

/-! ### One sweep for each element

By its definition `takes` tries all ways to share the text among the stars.  The answers for
all ends of the text, found element by element from the last one on, take one sweep over the
text for each element. -/

/-- For every place of a list, whether the list holds a yes from there on. -/
def anyLater : List Bool → List Bool
  | [] => []
  | b :: rest =>
    let later := anyLater rest
    (b || later.headD false) :: later

/-- The answers for all ends of a text, the longest first, with one more element at the start. -/
def Element.sweep (element : Element) (text : List Char) (answers : List Bool) : List Bool :=
  match element with
  | .star => anyLater answers
  | element => List.zipWith (fun c taken => element.accepts c && taken) text answers.tail ++ [false]

/-- For every end of a text, the longest first, whether elements take it. -/
def answers (elements : List Element) (text : List Char) : List Bool :=
  elements.foldr (fun element later => element.sweep text later) (text.map (fun _ => false) ++ [true])

theorem answers_nil (elements : List Element) :
  answers elements [] = [takes elements []]
  := by
  induction elements with
  | nil => simp [answers, takes]
  | cons element rest ih =>
    cases element <;> simp_all [answers, Element.sweep, anyLater, takes]

theorem answers_star (rest : List Element) (text : List Char) :
  answers (.star :: rest) text = anyLater (answers rest text)
  := rfl

/-- The answers for a text are the one for the whole text and those for its proper ends. -/
theorem answers_cons (elements : List Element) (c : Char) (text : List Char) :
  answers elements (c :: text) = takes elements (c :: text) :: answers elements text
  := by
  induction elements generalizing c text with
  | nil => simp [answers, takes]
  | cons element rest ih =>
    by_cases h : element = .star
    · subst h
      induction text generalizing c with
      | nil => simp [answers_star, ih, answers_nil, anyLater, takes]
      | cons d text step =>
        rw [answers_star, ih, anyLater, ← answers_star, step]
        simp [takes]
    · have sweep (text : List Char) : answers (element :: rest) text
          = List.zipWith (fun c taken => element.accepts c && taken) text (answers rest text).tail
            ++ [false] := by
        cases element with
        | star => contradiction
        | _ => rfl
      have start : takes (element :: rest) (c :: text) = (element.accepts c && takes rest text) := by
        cases element with
        | star => contradiction
        | _ => simp [takes]
      rw [sweep, sweep, ih, start]
      cases text with
      | nil => simp [answers_nil]
      | cons d text => simp [ih]

/-- Whether elements take a whole text, found in one sweep for each element. -/
def run (elements : List Element) (text : List Char) : Bool := (answers elements text).headD false

theorem run_eq_takes (elements : List Element) (text : List Char) :
  run elements text = takes elements text
  := by
  cases text with
  | nil => simp [run, answers_nil]
  | cons c text => simp [run, answers_cons]

/-- Whether a pattern matches a text. -/
def isMatch (pattern text : String) : Bool := run (parse pattern) text.toList

/-- Whether one of several patterns matches a path.  A pattern that starts with `**/` also
matches without that start, so that it covers the top level. -/
def matchesAny (path : String) (patterns : List String) : Bool :=
  patterns.any fun pattern =>
    isMatch pattern path
      || match pattern.toList with
        | '*' :: '*' :: '/' :: rest => isMatch (String.ofList rest) path
        | _ => false

end SingleUse.Glob
