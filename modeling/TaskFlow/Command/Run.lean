import TaskFlow.Command.Catalogue
import TaskFlow.Command.Report
import TaskFlow.Definition.Format

/-! # Commands

A command asks about task types or about a workflow file.  `Command.run` gives its output or the
reason why it fails; it reads files through a function that says what stands under a name, so that
what a command answers depends on nothing else. -/

namespace TaskFlow

/-! ### Files -/

/-- What stands under the name of a file. -/
inductive FileContent
  | missing
  | directory
  | bytes (content : ByteArray)

/-- Why no text can be read from a file. -/
inductive Unreadable
  | notFound
  | isDirectory
  | notText
deriving DecidableEq, Repr

def Unreadable.message : Unreadable → String
  | notFound => "there is no such file"
  | isDirectory => "it is a directory"
  | notText => "it is not UTF-8 text"

/-- The text of a file. -/
def FileContent.text : FileContent → Except Unreadable String
  | missing => .error .notFound
  | directory => .error .isDirectory
  | bytes content =>
    match String.fromUTF8? content with
    | some text => .ok text
    | none => .error .notText

/-! ### Commands and their failures -/

/-- What is asked. -/
inductive Command
  /-- The selectable task types, or all. -/
  | list (all : Bool)
  /-- One task type. -/
  | describe (raw : String)
  /-- Whether the registry is consistent. -/
  | check
  /-- The form of a task type. -/
  | form (raw : String)
  /-- Whether the workflow in a file has a graph. -/
  | validate (file : String)
deriving DecidableEq, Repr

/-- Why a command fails. -/
inductive Failure
  | unknownName (e : NameError)
  | inconsistent (e : Registry.Defect)
  | unreadable (file : String) (e : Unreadable)
  | unparsable (file : String) (e : Json.ReadError)
  | invalid (file : String) (workflow : String) (e : Graph.Defect)
deriving DecidableEq, Repr

/-- What is wrong with a text. -/
def Json.ReadError.message : Json.ReadError → String
  | .text .truncated => "the text ends too early"
  | .text .malformed => "the text is not JSON"
  | .shape m => m.message

namespace Failure

/-- What went wrong, in the words of the command. -/
def outer : Failure → String
  | unknownName e => e.fault.display
  | inconsistent _ => "task type registry is inconsistent"
  | unreadable file _ => "read " ++ file
  | unparsable file _ => "parse workflow " ++ file
  | invalid file _ _ => "invalid workflow " ++ file

/-- The reason behind it, if there is one. -/
def cause : Failure → Option String
  | unknownName _ => none
  | inconsistent e => some e.fault.display
  | unreadable _ e => some e.message
  | unparsable _ e => some e.message
  | invalid _ workflow e => some (e.fault workflow).display

/-- Sets every line of a text four characters in. -/
def indented (s : String) : String :=
  String.ofList ("    ".toList ++
    s.toList.flatMap fun c => if c = '\n' then "\n    ".toList else [c])

/-- The failure as it is shown to a user. -/
def shown (f : Failure) : String :=
  "Error: " ++ f.outer ++
    match f.cause with
    | none => ""
    | some reason => "\n\nCaused by:\n" ++ indented reason

end Failure

/-! ### Running a command -/

/-- The graph of the workflow in a file. -/
def loadGraph (read : String → FileContent) (file : String) : Except Failure Graph := do
  let text ← (read file).text.mapError (.unreadable file)
  let d ← (Definition.decoder.ofText text).mapError (.unparsable file)
  (Graph.build d).mapError (.invalid file d.name)

/-- What a command answers. -/
def Command.answer (settings : Settings) (read : String → FileContent) :
    Command → Except Failure Rendering
  | list all => .ok (Registry.standard.catalogue all)
  | describe raw => do
    let t ← (Registry.standard.resolve raw).mapError .unknownName
    return t.descriptor.sheet
  | check => do
    Registry.standard.check.mapError .inconsistent
    return Registry.standard.summary
  | form raw => do
    let t ← (Registry.standard.resolve raw).mapError .unknownName
    return (t.form settings.docsBase).rendering
  | validate file => do
    let g ← loadGraph read file
    return g.report.rendering

/-- The output of a command. -/
def Command.run (settings : Settings) (read : String → FileContent) (c : Command) :
    Except Failure String :=
  (c.answer settings read).map fun r => r.write settings.format

end TaskFlow
