import TaskFlow.Program

/-! # The command line program

Gives the arguments, the environment and the file named on the command line to `Program.run`, and
prints what it answers.  The texts on how to use the program are those of this module. -/

namespace TaskFlow

/-- What stands under the name of a file. -/
def readContent (file : String) : IO FileContent := do
  try
    return .bytes (← IO.FS.readBinFile file)
  catch
    | .inappropriateType .. => return .directory
    | _ => return .missing

/-- The environment variables that stand in for options. -/
def readEnvironment : IO CommandLine.Environment := do
  return {
    docsBase := ← IO.getEnv "FLOWDECK_DOCS_BASE_URL"
    format := ← IO.getEnv "FLOWDECK_FORMAT"
    logFilter := ← IO.getEnv "RUST_LOG" }

/-- An option with the value that its variable has. -/
def optionLine (option variableName : String) (value : Option String) : String :=
  "  " ++ option ++ "  [env: " ++ variableName ++ "=" ++ value.getD "" ++ "]"

/-- How the program is used, and what the environment says of its options. -/
def helpText : HelpText := fun _ env =>
  String.join <| [
    "Usage: flowdeck [OPTIONS] <COMMAND>", "", "Commands:", "  list [--all]",
    "  describe <TASK_TYPE>", "  check", "  form <TASK_TYPE>", "  validate <FILE>", "", "Options:",
    optionLine "--docs-base-url <URL>" "FLOWDECK_DOCS_BASE_URL" env.docsBase,
    optionLine "--format <text|json>" "FLOWDECK_FORMAT" env.format,
    optionLine "--log-filter <FILTER>" "RUST_LOG" env.logFilter,
    "  -h, --help", "  -V, --version"].map (· ++ "\n")

/-- What is written to the standard error when a run has ended. -/
def complaint : Outcome → String
  | .usage => "Error: usage: flowdeck [OPTIONS] <COMMAND>; try flowdeck --help\n"
  | outcome => outcome.stderr

end TaskFlow

open TaskFlow in
/-- Runs the program. -/
def main (args : List String) : IO UInt32 := do
  let env ← readEnvironment
  let content ← match Program.request args env with
    | .ok (_, .validate file) => readContent file
    | _ => pure .missing
  let outcome := Program.run helpText args env fun _ => content
  IO.print outcome.stdout
  IO.eprint (complaint outcome)
  return outcome.exitCode.toUInt32
