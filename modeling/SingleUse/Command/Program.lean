import SingleUse.Command.Configure
import SingleUse.Command.Lint

/-!
# The program

A run of the program: the command line is read, the settings are loaded, and the command is
carried out.
-/

namespace SingleUse

/-- How a run ends. -/
inductive Ending where
  | exit (status : Nat)
  /-- The command line asks for help, or for nothing. -/
  | help
deriving DecidableEq, Repr

namespace Program

/-- What the program says of its version. -/
def version : String := "onetime 0.1.0"

/-- The directory of the project: the one that the command line names, or that of the environment,
or the current one. -/
def projectOf (s : Outside) (i : Invocation) : SourcePath :=
  .ofText (i.project.getD (s.terminal.variableOf "ONETIME_PROJECT_PATH"))

/-- Carries out a command that checks files. -/
def lint (s : Outside) (settings : Settings) (a : LintArguments)
    (command : Lint → Run Nat) : Run Nat := do
  match ← Lint.setUp s settings a with
  | .ok lint => command lint
  | .error message =>
    Run.complain message
    return 2

/-- Carries out a command. -/
def perform (s : Outside) (project : SourcePath) (command : Command) : Run Nat := do
  let store := Store.ofWorkspace s project (← Run.workspace)
  let settings ← store.load
  match command with
  | .check a => lint s settings a fun lint => lint.check s a
  | .fix a => lint s settings a fun lint => lint.fix s a
  | .config a => Configure.run s project store settings a

/-- A run of the program. -/
def run (s : Outside) (arguments : List String) : Run Ending := do
  match Invocation.read arguments with
  | .error .help => return .help
  | .error .version =>
    Run.print s version
    return .exit 0
  | .error .misuse => return .exit 2
  | .ok i =>
    match i.command with
    | none => return .help
    | some command => return .exit (← perform s (projectOf s i) command)

/-- A run of the program from a world on: the world after it and how it ends. -/
def runFrom (s : Outside) (arguments : List String) (world : World) :
    Except Error Ending × World :=
  (run s arguments).run.run world

end Program

end SingleUse
