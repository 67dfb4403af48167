/-! # Items of a command line

The arguments of a command line are first split into items: options with their values, flags and
operands.  An option takes its value from behind an equals sign or from the next argument, which
must not look like an option itself.  What an item means at its place is decided later. -/

namespace TaskFlow.CommandLine

/-- The options that may stand before and after the name of a command. -/
inductive Setting
  | docsBase
  | format
  | logFilter
deriving DecidableEq, Repr

/-- The setting with that option name, without its dashes. -/
def Setting.ofName? : String → Option Setting
  | "docs-base-url" => some .docsBase
  | "format" => some .format
  | "log-filter" => some .logFilter
  | _ => none

/-- Options without a value. -/
inductive Flag
  | all
  | help
  | version
deriving DecidableEq, Repr

/-- The flag with that option name, without its dashes. -/
def Flag.ofName? : String → Option Flag
  | "all" => some .all
  | "help" => some .help
  | "version" => some .version
  | _ => none

/-- The flag with that letter. -/
def Flag.ofLetter? : Char → Option Flag
  | 'h' => some .help
  | 'V' => some .version
  | _ => none

/-- A part of a command line. -/
inductive Item
  | setting (s : Setting) (value : String)
  | flag (f : Flag)
  | operand (text : String)
  /-- Two dashes: all that follows is operands. -/
  | rest
  /-- An option that does not exist, or that has no value where it needs one or has one where it
  takes none. -/
  | unknown
deriving DecidableEq, Repr

namespace Item

/-- The argument may be the value of an option: it does not begin with a dash, or is nothing
else. -/
def isValue (arg : String) : Bool :=
  match arg.toList with
  | '-' :: _ :: _ => false
  | _ => true

/-- A long option without its dashes, as a name and the value behind an equals sign. -/
def splitLong (cs : List Char) : String × Option String :=
  match cs.dropWhile (· != '=') with
  | [] => (String.ofList cs, none)
  | _ :: value => (String.ofList (cs.takeWhile (· != '=')), some (String.ofList value))

/-- The item of a long option that has no value behind an equals sign, unless it is a setting. -/
def ofFlagName (name : String) (value : Option String) : Item :=
  match Flag.ofName? name, value with
  | some f, none => flag f
  | _, _ => unknown

/-- The item of a group of letters behind one dash: the first letter decides. -/
def ofLetter (c : Char) : Item :=
  match Flag.ofLetter? c with
  | some f => flag f
  | none => unknown

/-- The items of a command line. -/
def ofArguments : List String → List Item
  | [] => []
  | arg :: args =>
    match arg.toList with
    | ['-', '-'] => rest :: args.map operand
    | '-' :: '-' :: cs =>
      match Setting.ofName? (splitLong cs).1, (splitLong cs).2 with
      | some s, some value => setting s value :: ofArguments args
      | some s, none =>
        match args with
        | value :: args =>
          if isValue value then setting s value :: ofArguments args
          else unknown :: ofArguments (value :: args)
        | [] => [unknown]
      | none, value => ofFlagName (splitLong cs).1 value :: ofArguments args
    | '-' :: c :: _ => ofLetter c :: ofArguments args
    | _ => operand arg :: ofArguments args
termination_by args => args.length

end Item

end TaskFlow.CommandLine
