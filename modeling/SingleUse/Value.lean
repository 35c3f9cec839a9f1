import SingleUse.Edit
import SingleUse.Exclusion
import SingleUse.Text.Digit

/-!
# Values

Settings files and reports hold values whose kind is not known beforehand.  Besides the kinds
of a data file a report may hold paths, edits and exclusions.

Maps keep the order of their entries.  `Value.display` is the text of a value by itself,
`Value.literal` that of a value inside another, where texts are quoted.
-/

namespace SingleUse

/-- A decimal fraction: `mantissa` divided by ten to the power `places`. -/
structure Decimal where
  mantissa : Int
  places : Nat
deriving DecidableEq, Repr

namespace Decimal

/-- A whole number as a fraction. -/
def ofInt (n : Int) : Decimal := ⟨n, 0⟩

/-- Ten to a power. -/
def scale : Nat → Int
  | 0 => 1
  | places + 1 => 10 * scale places

/-- Both mantissas brought to the same number of places. -/
def align (a b : Decimal) : Int × Int :=
  (a.mantissa * scale b.places, b.mantissa * scale a.places)

/-- Strict order. -/
def lt (a b : Decimal) : Bool := (align a b).1 < (align a b).2

/-- Equality as numbers. -/
def same (a b : Decimal) : Bool := (align a b).1 = (align a b).2

/-- The whole part, cut off toward zero. -/
def truncate (a : Decimal) : Int := a.mantissa.tdiv (scale a.places)

/-- Positional text with at least one place. -/
def text (a : Decimal) : String :=
  let digits := Nat.toDigits 10 a.mantissa.natAbs
  let padded := List.replicate (a.places + 1 - digits.length) '0' ++ digits
  let whole := padded.take (padded.length - a.places)
  let fraction := padded.drop (padded.length - a.places)
  String.ofList ((if a.mantissa < 0 then ['-'] else []) ++ whole ++ ['.']
    ++ if fraction.isEmpty then ['0'] else fraction)

end Decimal

/-- A value of any kind. -/
inductive Value where
  | null
  | bool (b : Bool)
  | int (n : Int)
  | decimal (d : Decimal)
  | text (s : String)
  | list (items : List Value)
  | map (entries : List (String × Value))
  | path (s : String)
  | edit (e : Edit)
  | exclusion (e : Exclusion)
deriving Inhabited

namespace Value

/-- Whether a value counts as true: zero and whatever is empty do not. -/
def truthy : Value → Bool
  | null => false
  | bool b => b
  | int n => n ≠ 0
  | decimal d => d.mantissa ≠ 0
  | text s => s ≠ ""
  | list items => !items.isEmpty
  | map entries => !entries.isEmpty
  | path _ | edit _ | exclusion _ => true

/-- A value as a number; true and false are one and zero. -/
def number? : Value → Option Decimal
  | bool b => some (.ofInt (if b then 1 else 0))
  | int n => some (.ofInt n)
  | decimal d => some d
  | _ => none

/-- The entry of a map under a key. -/
def find? (key : String) (entries : List (String × Value)) : Option Value :=
  (entries.find? fun entry => entry.1 = key).map (·.2)

/-- Puts an entry into a map: in the place of the old one under its key, or at the end. -/
def put (key : String) (value : Value) : List (String × Value) → List (String × Value)
  | [] => [(key, value)]
  | entry :: rest =>
    if entry.1 = key then (key, value) :: rest else entry :: put key value rest

/-- The map that a list of entries builds up, where a repeated key keeps its first place and
its last value. -/
def ofEntries (entries : List (String × Value)) : List (String × Value) :=
  entries.foldl (fun map entry => put entry.1 entry.2 map) []

/-- What a value holds one after the other: the items of a list, the characters of a text, the
keys of a map, and nothing if the value does not count as true.  Other values hold nothing that
could be gone through. -/
def contents? (value : Value) : Option (List Value) :=
  if !value.truthy then some []
  else
    match value with
    | list items => some items
    | text s => some (s.toList.map fun c => text c.toString)
    | map entries => some (entries.map fun entry => text entry.1)
    | _ => none

/-- The texts of truth values. -/
def boolText (b : Bool) : String := if b then "True" else "False"

/-- The names of the exclusions inside other values. -/
def exclusionTag (e : Exclusion) : String :=
  String.ofList (e.name.toList.map fun c => if c = '-' then '_' else c.toUpper)

/-- The text of an edit. -/
def editText (e : Edit) : String :=
  s!"Edit(range=TextRange(start={e.range.start}, end={e.range.stop}), text={Text.quote e.text})"

mutual

/-- The text of a value inside another one. -/
def literal : Value → String
  | null => "None"
  | bool b => boolText b
  | int n => toString n
  | decimal d => d.text
  | text s => Text.quote s
  | list items => "[" ++ ", ".intercalate (literals items) ++ "]"
  | map entries => "\x7b" ++ ", ".intercalate (entryLiterals entries) ++ "\x7d"
  | path s => s!"PosixPath({Text.quote s})"
  | edit e => editText e
  | exclusion e => s!"<Exclusion.{exclusionTag e}: {Text.quote e.name}>"

/-- The texts of the items of a list. -/
def literals : List Value → List String
  | [] => []
  | item :: rest => literal item :: literals rest

/-- The texts of the entries of a map. -/
def entryLiterals : List (String × Value) → List String
  | [] => []
  | (key, value) :: rest => (Text.quote key ++ ": " ++ literal value) :: entryLiterals rest

end

/-- The text of a value by itself. -/
def display : Value → String
  | text s => s
  | path s => s
  | exclusion e => s!"Exclusion.{exclusionTag e}"
  | value => literal value

/-- Whether two values are the same member of a set: numbers by their value, texts by their
characters. -/
def sameMember (a b : Value) : Bool :=
  match a.number?, b.number? with
  | some x, some y => x.same y
  | none, none =>
    match a, b with
    | null, null => true
    | text s, text t => s = t
    | path s, path t => s = t
    | edit e, edit f => e = f
    | exclusion e, exclusion f => e = f
    | _, _ => false
  | _, _ => false

/-- Whether a value may be a member of a set. -/
def isAtom : Value → Bool
  | list _ | map _ => false
  | _ => true

/-- The members of a list, each once, at the place of its first occurrence. -/
def distinct (items : List Value) : List Value :=
  items.foldl (fun seen item => if seen.any (·.sameMember item) then seen else seen ++ [item]) []

/-- Texts in the order of their characters, numbers by their value.  There is no order on more
than one member unless all are texts or all are numbers. -/
def sorted? (items : List Value) : Option (List Value) :=
  if items.length ≤ 1 then some items
  else
    let texts := items.filterMap fun | text s => some s | _ => none
    let numbers := items.filterMap fun item => item.number?.map fun d => (d, item)
    if texts.length = items.length then
      some ((texts.mergeSort fun s t => s ≤ t).map text)
    else if numbers.length = items.length then
      some ((numbers.mergeSort fun x y => !y.1.lt x.1).map (·.2))
    else none

end Value

end SingleUse
