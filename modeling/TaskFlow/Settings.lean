import TaskFlow.Form.Layout

/-! # Settings

What every command is told: where the documentation is and how to write the output. -/

namespace TaskFlow

/-- How the output of a command is written. -/
inductive OutputFormat
  | text
  | json
deriving DecidableEq, Repr

/-- The format with this name; letter case counts. -/
def OutputFormat.ofName? : String → Option OutputFormat
  | "text" => some .text
  | "json" => some .json
  | _ => none

/-- The base of the documentation when none is given. -/
def defaultDocsBase : String :=
  "https://dolphinscheduler.apache.org/en-us/docs/latest"

/-- The settings that every command shares. -/
structure Settings where
  docsBase : String := defaultDocsBase
  format : OutputFormat := .text
deriving DecidableEq, Repr

/-- A base without blanks at its ends and then without slashes at its end; the default base when
nothing is left. -/
def resolveDocsBase (base : Option String) : String :=
  match base with
  | none => defaultDocsBase
  | some raw =>
    let trimmed := trimSlashes (String.ofList (Text.trimBlank raw.toList))
    if trimmed = "" then defaultDocsBase else trimmed

/-- The settings for a base and a format as they were given. -/
def Settings.ofOptions (base : Option String) (format : OutputFormat) : Settings :=
  { docsBase := resolveDocsBase base, format := format }

end TaskFlow
