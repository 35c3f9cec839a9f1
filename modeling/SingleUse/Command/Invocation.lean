import SingleUse.Command.Arguments
import SingleUse.View.Render

/-!
# Invocations

What a command line asks for: one of the commands `check`, `fix` and `config`, and where the
project is.
-/

namespace SingleUse

/-- The arguments of the commands that check files. -/
structure LintArguments where
  paths : List String := ["."]
  format : Option Format := none
  /-- Options of the rule, each with its value. -/
  rules : List String := []
  /-- Patterns of files that are passed over. -/
  exclude : List String := []
  noGitignore : Bool := false
  full : Bool := false
  dryRun : Bool := false
  diff : Bool := false

/-- The arguments of the command for settings. -/
structure ConfigArguments where
  set : Option String := none
  get : Option String := none
  user : Bool := false

/-- A command with its arguments. -/
inductive Command where
  | check (arguments : LintArguments)
  | fix (arguments : LintArguments)
  | config (arguments : ConfigArguments)

/-- What a command line asks for. -/
structure Invocation where
  project : Option String := none
  command : Option Command := none

/-- The switch that asks for help. -/
def helpSwitch : Switch := { flag := .help, names := ["-h", "--help"] }

namespace LintArguments

/-- The switches of the commands that check files. -/
def switches : List Switch := [
  helpSwitch,
  { flag := .format, names := ["--format", "-f"], valued := true },
  { flag := .rule, names := ["--rule", "-r"], valued := true },
  { flag := .exclude, names := ["--exclude"], valued := true },
  { flag := .noGitignore, names := ["--no-gitignore"] },
  { flag := .full, names := ["--full"] }]

/-- The switches of the command that changes files. -/
def fixSwitches : List Switch := switches ++ [
  { flag := .dryRun, names := ["--dry-run"] },
  { flag := .diff, names := ["--diff"] }]

/-- The arguments after a switch. -/
def act (a : LintArguments) (flag : Flag) (value : String) : Except Stop LintArguments :=
  match flag with
  | .help => .error .help
  | .format =>
    match Format.all.find? fun format => format.name = value with
    | some format => .ok { a with format := some format }
    | none => .error .misuse
  | .rule => .ok { a with rules := a.rules ++ [value] }
  | .exclude => .ok { a with exclude := a.exclude ++ [value] }
  | .noGitignore => .ok { a with noGitignore := true }
  | .full => .ok { a with full := true }
  | .dryRun => .ok { a with dryRun := true }
  | .diff => .ok { a with diff := true }
  | _ => .ok a

/-- The arguments that some texts give, and whether there is one too many. -/
def read (switches : List Switch) (texts : List String) : Except Stop (LintArguments × Bool) := do
  let (a, words) ← Grammar.all ⟨switches, act⟩ {} {} (← Argument.readAll switches texts)
  return (if words.list = [] then a else { a with paths := words.list }, words.strange)

end LintArguments

namespace ConfigArguments

/-- The switches of the command for settings. -/
def switches : List Switch := [
  helpSwitch,
  { flag := .set, names := ["--set"], valued := true },
  { flag := .get, names := ["--get"], valued := true },
  { flag := .user, names := ["--user"] }]

/-- The arguments after a switch. -/
def act (a : ConfigArguments) (flag : Flag) (value : String) : Except Stop ConfigArguments :=
  match flag with
  | .help => .error .help
  | .set => .ok { a with set := some value }
  | .get => .ok { a with get := some value }
  | .user => .ok { a with user := true }
  | _ => .ok a

/-- The arguments that some texts give, and whether there is one too many. -/
def read (texts : List String) : Except Stop (ConfigArguments × Bool) := do
  let (a, words) ← Grammar.all ⟨switches, act⟩ {} { run := .after }
    (← Argument.readAll switches texts)
  return (a, words.strange)

end ConfigArguments

namespace Invocation

/-- The switches before the command. -/
def switches : List Switch := [
  helpSwitch,
  { flag := .project, names := ["--project", "-p"], valued := true },
  { flag := .verbose, names := ["--verbose", "-v"] },
  { flag := .version, names := ["--version", "-V"] }]

/-- The invocation after a switch. -/
def act (i : Invocation) (flag : Flag) (value : String) : Except Stop Invocation :=
  match flag with
  | .help => .error .help
  | .version => .error .version
  | .project => .ok { i with project := some value }
  | _ => .ok i

/-- The command that a name and its arguments give, and whether there is one too many. -/
def readCommand (name : String) (texts : List String) : Except Stop (Command × Bool) :=
  match name with
  | "check" => do
    let (a, strange) ← LintArguments.read LintArguments.switches texts
    return (.check a, strange)
  | "fix" => do
    let (a, strange) ← LintArguments.read LintArguments.fixSwitches texts
    return (.fix a, strange)
  | "config" => do
    let (a, strange) ← ConfigArguments.read texts
    return (.config a, strange)
  | _ => .error .misuse

/-- What a command line asks for.  The switches before the command are looked for among all
arguments, so that one that is not unique there is refused wherever it stands; arguments that no
one takes are refused last. -/
def read (texts : List String) : Except Stop Invocation := do
  let (i, strange, rest) ← Grammar.leading ⟨switches, act⟩ {} false
    (← Argument.readAll switches texts)
  match rest with
  | [] => if strange then throw .misuse else return i
  | name :: texts =>
    let (command, extra) ← readCommand name texts
    if strange || extra then throw .misuse
    return { i with command := some command }

end Invocation

end SingleUse
