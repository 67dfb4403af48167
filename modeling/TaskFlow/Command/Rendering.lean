import TaskFlow.Json.Write
import TaskFlow.Settings

/-! # Renderings

What a command answers can be written as lines of text or as a JSON document. -/

namespace TaskFlow

/-- An answer in both forms. -/
structure Rendering where
  lines : List String
  json : Json

namespace Rendering

/-- Lines, each with a new line after it. -/
def text (r : Rendering) : String :=
  String.join (r.lines.map (· ++ "\n"))

/-- The answer in the form asked for. -/
def write (r : Rendering) : OutputFormat → String
  | .text => r.text
  | .json => r.json.pretty

end Rendering

end TaskFlow
