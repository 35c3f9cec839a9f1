import SingleUse.Text.Digit
import SingleUse.Text.Split

/-!
# Arguments

The arguments of a command line are words, switches, and a divider `--` after which all arguments
are words.  A switch has a long name, which may be cut short as long as it stays unique, or a
short one; short names may be run together, and a value may follow a name directly or after an
equals sign, or be the next word.

A command takes words in one run: of several runs with switches between them only the first one
is taken.
-/

namespace SingleUse

/-- The switches by meaning. -/
inductive Flag where
  | help | version | project | verbose
  | format | rule | exclude | noGitignore | full | dryRun | diff
  | set | get | user
deriving DecidableEq, Repr

/-- A switch: its names and whether it takes a value. -/
structure Switch where
  flag : Flag
  names : List String
  valued : Bool := false

/-- Why the reading of a command line ends early. -/
inductive Stop where
  | help
  | version
  /-- The command line is not understood. -/
  | misuse
deriving DecidableEq, Repr

/-- What stands after the name of a switch in the same argument. -/
inductive Attached where
  | nothing
  /-- What follows a short name, directly or after an equals sign. -/
  | toShort (text : List Char)
  /-- What follows the equals sign after a long name. -/
  | toLong (text : List Char)

/-- What an argument is. -/
inductive Argument where
  | word
  | divider
  /-- A switch, with what follows its name. -/
  | switch (s : Switch) (value : Attached)
  /-- A switch that is not known. -/
  | unknown

namespace Argument

/-- The switch with a name. -/
def named? (switches : List Switch) (name : String) : Option Switch :=
  switches.find? fun s => s.names.contains name

/-- What stands before the first equals sign, and after it if there is one. -/
def atEquals (text : List Char) : List Char × Option (List Char) :=
  let before := text.takeWhile (· ≠ '=')
  (before, (text.drop before.length).tail?)

/-- A text attached to a name. -/
def attach (name : List Char) (text : List Char) : Attached :=
  match name with
  | '-' :: '-' :: _ => .toLong text
  | _ => .toShort text

/-- The names that the start of an argument may stand for, with the value that follows. -/
def readings (switches : List Switch) (text : List Char) : List Argument :=
  switches.flatMap fun s => s.names.filterMap fun name =>
    match text with
    | '-' :: '-' :: _ =>
      let (start, value) := atEquals text
      if start.isPrefixOf name.toList then
        some (.switch s ((value.map .toLong).getD .nothing))
      else none
    | first :: second :: rest =>
      if name.toList = [first, second] then some (.switch s (.toShort rest)) else none
    | _ => none

/-- Whether some characters are digits. -/
def areDigits (text : List Char) : Bool := text.all fun c => (Text.digitValue? c).isSome

/-- Whether an argument is a negative number, possibly with a line end after it. -/
def isNegativeNumber (text : List Char) : Bool :=
  let text := if text.getLast? = some '\n' then text.dropLast else text
  match text with
  | '-' :: number =>
    let whole := number.takeWhile fun c => (Text.digitValue? c).isSome
    match number.drop whole.length with
    | [] => !whole.isEmpty
    | '.' :: fraction => !fraction.isEmpty && areDigits fraction
    | _ => false
  | _ => false

/-- What an argument before the divider is. -/
def read (switches : List Switch) (text : String) : Except Stop Argument :=
  match text.toList with
  | '-' :: _ :: _ =>
    match named? switches text with
    | some s => .ok (.switch s .nothing)
    | none =>
      let (name, value) := atEquals text.toList
      match named? switches (String.ofList name), value with
      | some s, some value => .ok (.switch s (attach name value))
      | _, _ =>
        match readings switches text.toList with
        | [reading] => .ok reading
        | [] =>
          if isNegativeNumber text.toList || text.toList.contains ' ' then .ok .word
          else .ok .unknown
        | _ => .error .misuse
  | _ => .ok .word

/-- The arguments with what they are. -/
def readAll (switches : List Switch) : List String → Except Stop (List (String × Argument))
  | [] => .ok []
  | "--" :: rest => .ok (("--", .divider) :: rest.map fun text => (text, .word))
  | text :: rest => do return (text, ← read switches text) :: (← readAll switches rest)

/-- The switches that a short name and the text attached to it stand for, with their values.  A
switch that takes a value takes the whole text; otherwise the first character is another short
name, and the rest is attached to that. -/
def cluster (switches : List Switch) (s : Switch) :
    List Char → Except Stop (List (Switch × Option String))
  | [] => if s.valued then .ok [(s, some "")] else .error .misuse
  | c :: rest =>
    if s.valued then .ok [(s, some (String.ofList (c :: rest)))]
    else
      match named? switches (String.ofList ['-', c]) with
      | none => .error .misuse
      | some t =>
        if rest.isEmpty then .ok [(s, none), (t, none)]
        else (cluster switches t rest).map ((s, none) :: ·)

/-- The switches that an argument stands for, with their values. -/
def expand (switches : List Switch) (s : Switch) :
    Attached → Except Stop (List (Switch × Option String))
  | .nothing => .ok [(s, none)]
  | .toLong text => if s.valued then .ok [(s, some (String.ofList text))] else .error .misuse
  | .toShort text => cluster switches s text

/-- Whether the last one of some switches waits for a value. -/
def waits (given : List (Switch × Option String)) : Bool :=
  given.getLast?.any fun (s, value) => s.valued && value.isNone

end Argument

/-- A set of switches and what they do to a state. -/
structure Grammar (σ : Type) where
  switches : List Switch
  act : σ → Flag → String → Except Stop σ

namespace Grammar

variable {σ : Type}

/-- The state after some switches, the last of which may take the next word. -/
def apply (g : Grammar σ) (next : String) : σ → List (Switch × Option String) → Except Stop σ
  | state, [] => .ok state
  | state, (s, value) :: rest => do g.apply next (← g.act state s.flag (value.getD next)) rest

/-- The state after the switches before the first word; whether there was an unknown one; and the
arguments from that word on. -/
def leading (g : Grammar σ) (state : σ) (strange : Bool) :
    List (String × Argument) → Except Stop (σ × Bool × List String)
  | [] => .ok (state, strange, [])
  | (_, .unknown) :: rest => g.leading state true rest
  | (text, .word) :: rest => .ok (state, strange, text :: rest.map (·.1))
  | (text, .divider) :: rest => .ok (state, strange, text :: rest.map (·.1))
  | (_, .switch s value) :: rest => do
    let given ← Argument.expand g.switches s value
    if Argument.waits given then
      match rest with
      | (next, .word) :: rest => g.leading (← g.apply next state given) strange rest
      | _ => throw .misuse
    else g.leading (← g.apply "" state given) strange rest

/-- The runs of words that a command may take. -/
inductive Run where
  /-- None yet. -/
  | before
  | within
  /-- No more. -/
  | after
deriving DecidableEq, Repr

/-- The words that a command takes. -/
structure Words where
  taken : List String := []
  run : Run := .before
  /-- Whether there is an argument that the command does not take. -/
  strange : Bool := false

namespace Words

/-- The words after another one. -/
def push (words : Words) (text : String) : Words :=
  match words.run with
  | .after => { words with strange := true }
  | _ => { words with taken := words.taken ++ [text], run := .within }

/-- The words after a switch. -/
def close (words : Words) : Words :=
  { words with run := if words.run = .within then .after else words.run }

/-- The words without the first divider. -/
def list (words : Words) : List String := words.taken.erase "--"

end Words

/-- The state after all switches, and the words between them. -/
def all (g : Grammar σ) (state : σ) (words : Words) :
    List (String × Argument) → Except Stop (σ × Words)
  | [] => .ok (state, words)
  | (_, .unknown) :: rest => g.all state { words.close with strange := true } rest
  | (text, .word) :: rest => g.all state (words.push text) rest
  | (text, .divider) :: rest => g.all state (words.push text) rest
  | (_, .switch s value) :: rest => do
    let given ← Argument.expand g.switches s value
    if Argument.waits given then
      match rest with
      | (next, .word) :: rest => g.all (← g.apply next state given) words.close rest
      | _ => throw .misuse
    else g.all (← g.apply "" state given) words.close rest

end Grammar

end SingleUse
