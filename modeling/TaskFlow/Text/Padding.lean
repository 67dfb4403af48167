/-! # Padding a text to a width

A text is first cut to a precision and then filled up to a width.  `Padding.pad` does both. -/

namespace TaskFlow.Text

/-- Where the text stands among the filling characters. -/
inductive Alignment
  | left
  | right
  | center
deriving DecidableEq, Repr

/-- How a text is cut and filled. -/
structure Padding where
  /-- The least number of characters. -/
  width : Option Nat := none
  /-- The greatest number of characters taken from the text. -/
  precision : Option Nat := none
  alignment : Alignment := .left
  fill : Char := ' '
deriving DecidableEq, Repr

namespace Padding

/-- The number of filling characters before the text, of `missing` in all.  A centred text has the
smaller half before it. -/
def before (alignment : Alignment) (missing : Nat) : Nat :=
  match alignment with
  | .left => 0
  | .right => missing
  | .center => missing / 2

/-- Cuts the text to the precision, counted in characters. -/
def cut (p : Padding) (cs : List Char) : List Char :=
  match p.precision with
  | none => cs
  | some n => cs.take n

/-- Cuts the text to the precision and fills it up to the width. -/
def pad (p : Padding) (cs : List Char) : List Char :=
  let kept := p.cut cs
  let missing := p.width.getD 0 - kept.length
  let start := before p.alignment missing
  List.replicate start p.fill ++ kept ++ List.replicate (missing - start) p.fill

/-- The text padded as `p` says. -/
def apply (p : Padding) (s : String) : String :=
  String.ofList (p.pad s.toList)

/-- Without a width and a precision the text stays as it is. -/
theorem apply_empty (s : String) : ({} : Padding).apply s = s := by
  simp [apply, pad, cut, before]

end Padding

end TaskFlow.Text
