/-! # What is wrong with a text

A text that is not JSON either ends too early or holds something that no continuation could mend. -/

namespace TaskFlow.Json

/-- How a text fails to be JSON. -/
inductive Problem
  /-- The text ends too early. -/
  | truncated
  /-- The text goes on in a way that JSON does not. -/
  | malformed
deriving DecidableEq, Repr

/-- The problem where something was due and `rest` stands instead. -/
def Problem.before (rest : List Char) : Problem :=
  if rest.isEmpty then truncated else malformed

end TaskFlow.Json
