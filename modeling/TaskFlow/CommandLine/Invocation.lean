import TaskFlow.Command.Run
import TaskFlow.CommandLine.Item

/-! # Invocations

The items of a command line are read in order: options of the program, the name of a command, then
options and operands of the command.  The options that both levels know are collected level by
level.  Where a level does not give such an option, its environment variable is looked at, so a
variable with an impossible value is refused unless both levels give the option.  Of the values at
hand the one given last on the command line counts, then the variable, then the default. -/

namespace TaskFlow.CommandLine

/-- Why a command line is not carried out. -/
inductive Stop
  /-- It makes no sense. -/
  | usage
  /-- It asks for help. -/
  | help
  /-- It asks for the version. -/
  | version
deriving DecidableEq, Repr

/-! ### Options of one level -/

/-- The options given at one level. -/
structure Options where
  docsBase : Option String := none
  format : Option OutputFormat := none
  logFilter : Option String := none
deriving DecidableEq, Repr

namespace Options

/-- Adds an option, which must not have been given at this level before. -/
def set (o : Options) (s : Setting) (value : String) : Except Stop Options :=
  match s with
  | .docsBase => if o.docsBase.isSome then .error .usage else .ok { o with docsBase := some value }
  | .logFilter =>
    if o.logFilter.isSome then .error .usage else .ok { o with logFilter := some value }
  | .format =>
    match o.format, OutputFormat.ofName? value with
    | none, some f => .ok { o with format := some f }
    | _, _ => .error .usage

end Options

/-! ### Commands -/

/-- The names of the commands. -/
inductive CommandName
  | list
  | describe
  | check
  | form
  | validate
deriving DecidableEq, Repr

namespace CommandName

def ofName? : String → Option CommandName
  | "list" => some list
  | "describe" => some describe
  | "check" => some check
  | "form" => some form
  | "validate" => some validate
  | _ => none

/-- The text may be the operand of the command.  A file has a name. -/
def takes : CommandName → String → Bool
  | list, _ | check, _ => false
  | describe, _ | form, _ => true
  | validate, file => file ≠ ""

/-- The command with its flag and operand. -/
def command (all : Bool) (operand : Option String) : CommandName → Except Stop Command
  | list => .ok (.list all)
  | check => .ok .check
  | describe => (operand.map Command.describe).elim (.error .usage) .ok
  | form => (operand.map Command.form).elim (.error .usage) .ok
  | validate => (operand.map Command.validate).elim (.error .usage) .ok

end CommandName

/-- What is asked on a command line. -/
structure Invocation where
  command : Command
  /-- The options before the name of the command. -/
  outer : Options
  /-- The options after it. -/
  inner : Options
deriving DecidableEq, Repr

/-! ### Reading -/

/-- What has been read after the name of a command. -/
structure Tail where
  options : Options := {}
  all : Bool := false
  operand : Option String := none
deriving DecidableEq, Repr

/-- Reads an item after the name of a command. -/
def Tail.add (name : CommandName) (t : Tail) : Item → Except Stop Tail
  | .setting s value => (t.options.set s value).map fun o => { t with options := o }
  | .flag .all =>
    if name = .list ∧ t.all = false then .ok { t with all := true } else .error .usage
  | .flag .help => .error .help
  | .flag .version => .error .usage
  | .operand text =>
    if name.takes text ∧ t.operand = none then .ok { t with operand := some text }
    else .error .usage
  | .rest => .ok t
  | .unknown => .error .usage

/-- Whether there is help for what follows the word `help`: nothing, or the name of a command. -/
def helpOn : List Item → Stop
  | [] => .help
  | [.operand text] =>
    if text = "help" ∨ (CommandName.ofName? text).isSome then .help else .usage
  | _ => .usage

/-- Reads the items from the start of the command line, with the options before them. -/
def Invocation.ofItems (outer : Options) : List Item → Except Stop Invocation
  | [] => .error .usage
  | .setting s value :: items => do
    let o ← outer.set s value
    ofItems o items
  | .flag .version :: _ => .error .version
  | .flag .help :: _ => .error .help
  | .operand "help" :: items => .error (helpOn items)
  | .operand text :: items =>
    match CommandName.ofName? text with
    | none => .error .usage
    | some name => do
      let t ← items.foldlM (Tail.add name) {}
      let c ← name.command t.all t.operand
      return { command := c, outer := outer, inner := t.options }
  | _ => .error .usage

/-! ### Environment -/

/-- The environment variables that stand in for options. -/
structure Environment where
  docsBase : Option String := none
  format : Option String := none
  logFilter : Option String := none
deriving DecidableEq, Repr

/-- The format that a level without an option takes from the environment. -/
def Environment.format? (env : Environment) : Except Stop (Option OutputFormat) :=
  match env.format with
  | none => .ok none
  | some value => (OutputFormat.ofName? value).elim (.error .usage) (.ok ∘ some)

/-- The format of a level: its option if there is one, the variable otherwise. -/
def Options.formatIn (env : Environment) (o : Options) : Except Stop (Option OutputFormat) :=
  match o.format with
  | some f => .ok (some f)
  | none => env.format?

/-- The settings of an invocation in an environment. -/
def Invocation.settings (i : Invocation) (env : Environment) : Except Stop Settings := do
  let inner ← i.inner.formatIn env
  let outer ← i.outer.formatIn env
  let format := (i.inner.format.or i.outer.format).or (inner.or outer)
  let docsBase := (i.inner.docsBase.or i.outer.docsBase).or env.docsBase
  return .ofOptions docsBase (format.getD .text)

end TaskFlow.CommandLine
