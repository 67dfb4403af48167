import TaskFlow.CommandLine.Invocation

/-! # The program

What a run of the program prints and with which exit code it ends, for its arguments, its
environment and the files it may read.  The help texts are not made here: a run is given them. -/

namespace TaskFlow

open CommandLine

/-- How a run ends. -/
inductive Outcome
  /-- The command has been carried out. -/
  | done (output : String)
  /-- The command failed. -/
  | failed (f : Failure)
  /-- The command line makes no sense. -/
  | usage
deriving DecidableEq, Repr

namespace Outcome

def exitCode : Outcome → Nat
  | done _ => 0
  | failed _ => 1
  | usage => 2

/-- What is written to the standard output. -/
def stdout : Outcome → String
  | done output => output
  | _ => ""

/-- What is told of a failed command on the standard error. -/
def stderr : Outcome → String
  | failed f => f.shown ++ "\n"
  | _ => ""

end Outcome

/-- What the reader of command lines answers when help is asked for.  The answer depends on the
command line, and it shows the values of the variables. -/
abbrev HelpText : Type :=
  List String → Environment → String

namespace Program

/-- The answer to a request for the version. -/
def version : String :=
  "flowdeck 0.1.0\n"

/-- The output with a new line at its end. -/
def endLine (output : String) : String :=
  if output.toList.getLast? = some '\n' then output else output ++ "\n"

/-- A run that is stopped by its command line. -/
def stopped (help : String) : Stop → Outcome
  | .usage => .usage
  | .help => .done help
  | .version => .done version

/-- The settings and the command that a command line asks for. -/
def request (args : List String) (env : Environment) : Except Stop (Settings × Command) := do
  let i ← Invocation.ofItems {} (Item.ofArguments args)
  let settings ← i.settings env
  return (settings, i.command)

/-- A run of the program. -/
def run (help : HelpText) (args : List String) (env : Environment)
    (read : String → FileContent) : Outcome :=
  match request args env with
  | .error stop => stopped (help args env) stop
  | .ok (settings, c) =>
    match c.run settings read with
    | .ok output => .done (endLine output)
    | .error f => .failed f

end Program

end TaskFlow
