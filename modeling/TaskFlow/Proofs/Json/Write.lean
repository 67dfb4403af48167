import TaskFlow.Json.Write
import TaskFlow.Proofs.Json.Record

/-! # What is written can be read

`Json.toDoc v` is the document as which a value is written: every character of a string becomes one
piece.  On one line and over several lines the writer spells exactly the tokens of this document
(`spelled_compactChars`, `spelled_prettyChars`), whatever the strings and numbers in it are.  So a
decoder that reads the document reads both texts (`Reads.ofText_compact`, `Reads.ofText_pretty`). -/

namespace TaskFlow.Json

/-! ### Numbers -/

namespace Numeral

variable {n : Nat} {c : Char} {cs : List Char}

theorem digits_toDigits (n : Nat) : Digits (Nat.toDigits 10 n) :=
  ⟨Nat.toDigits_ne_nil, fun _ hc => Nat.isDigit_of_mem_toDigits (by decide) (by decide) hc⟩

theorem val_digitValue (hc : c.isDigit = true) : (digitValue c).val = c.toNat - '0'.toNat := by
  have hle : c.toNat ≤ '9'.toNat := by
    rw [Char.isDigit, Bool.and_eq_true, decide_eq_true_iff, decide_eq_true_iff] at hc
    exact hc.2
  have hlt : c.toNat - '0'.toNat < 10 := by
    have h9 : '9'.toNat = '0'.toNat + 9 := rfl
    omega
  exact Nat.mod_eq_of_lt hlt

theorem digitsValue_eq_ofDigitChars (h : ∀ c ∈ cs, c.isDigit = true) :
    digitsValue cs = Nat.ofDigitChars 10 cs 0 := by
  rw [digitsValue, Nat.ofDigitChars_eq_foldl]
  refine List.foldl_ext _ _ 0 fun m c hc => ?_
  rw [val_digitValue (h c hc), Nat.mul_comm]

theorem digitsValue_toDigits (n : Nat) : digitsValue (Nat.toDigits 10 n) = n := by
  rw [digitsValue_eq_ofDigitChars (digits_toDigits n).2, Nat.ofDigitChars_ten_toDigits]

theorem digitChar_ne_zero : ∀ n < 10, 0 < n → n.digitChar ≠ '0' := by
  decide

/-- A positive number is not written with a zero at its front. -/
theorem ne_zero_of_toDigits_eq_cons (hn : 0 < n) (h : Nat.toDigits 10 n = c :: cs) : c ≠ '0' := by
  induction n using Nat.strong_induction_on generalizing cs with
  | _ n ih =>
      by_cases hlt : n < 10
      · rw [Nat.toDigits_of_lt_base hlt] at h
        obtain ⟨rfl, -⟩ := List.cons.inj h
        exact digitChar_ne_zero n hlt hn
      · rw [Nat.toDigits_of_base_le (by decide) (by omega)] at h
        cases hds : Nat.toDigits 10 (n / 10) with
        | nil => exact absurd hds Nat.toDigits_ne_nil
        | cons d ds =>
            rw [hds, List.cons_append] at h
            obtain ⟨rfl, -⟩ := List.cons.inj h
            exact ih (n / 10) (by omega) (by omega) hds

theorem wholeWritten_toDigits (n : Nat) : WholeWritten n (Nat.toDigits 10 n) := by
  rcases Nat.eq_zero_or_pos n with rfl | hn
  · rw [Nat.toDigits_zero]
    exact .zero
  · have hdigits := digits_toDigits n
    have hvalue := digitsValue_toDigits n
    cases hds : Nat.toDigits 10 n with
    | nil => exact absurd hds Nat.toDigits_ne_nil
    | cons c cs =>
        rw [hds] at hdigits hvalue
        have hwritten := WholeWritten.digits (ne_zero_of_toDigits_eq_cons hn hds) hdigits
        rwa [hvalue] at hwritten

theorem isDigit_digitChar (d : Fin 10) : (digitChar d).isDigit = true := by
  revert d
  decide

theorem digitValue_digitChar (d : Fin 10) : digitValue (digitChar d) = d := by
  revert d
  decide

theorem fractionWritten_write (ds : List (Fin 10)) : FractionWritten ds (writeFraction ds) := by
  cases ds with
  | nil => exact .none
  | cons d ds =>
      have hdigits : Digits ((d :: ds).map digitChar) := by
        refine ⟨by simp, fun c hc => ?_⟩
        obtain ⟨d', -, rfl⟩ := List.mem_map.1 hc
        exact isDigit_digitChar d'
      have hvalues : ((d :: ds).map digitChar).map digitValue = d :: ds := by
        rw [List.map_map]
        exact List.map_id'' digitValue_digitChar _
      have hwritten := FractionWritten.point hdigits
      rwa [hvalues] at hwritten

theorem exponentWritten_write (e : Option Int) : ExponentWritten e (writeExponent e) := by
  cases e with
  | none => exact .none
  | some e =>
      have hdigits := digits_toDigits e.natAbs
      have hvalue := digitsValue_toDigits e.natAbs
      by_cases he : e < 0
      · have hwritten := ExponentWritten.some (.inl rfl) .minus hdigits
        have habs : -(e.natAbs : Int) = e := by omega
        rw [hvalue, if_pos rfl, habs] at hwritten
        rw [writeExponent, if_pos he]
        exact hwritten
      · have hwritten := ExponentWritten.some (.inl rfl) .none hdigits
        have habs : (e.natAbs : Int) = e := by omega
        rw [hvalue, if_neg Bool.false_ne_true, habs] at hwritten
        rw [writeExponent, if_neg he]
        exact hwritten

theorem written_write (n : Numeral) : n.Written n.write := by
  have hwritten := Written.mk (wholeWritten_toDigits n.whole) (fractionWritten_write n.fraction)
    (exponentWritten_write n.exponent)
  rw [write, List.append_assoc, List.append_assoc]
  exact hwritten

end Numeral

/-! ### Strings -/

namespace Piece

/-- The pieces of a string none of whose characters is split. -/
def ofString (s : String) : List Piece :=
  s.toList.map char

theorem denotes_ofString (s : String) : Denotes (ofString s) s.toList := by
  rw [ofString]
  induction s.toList with
  | nil => exact .nil
  | cons c cs ih => exact .char ih

theorem unitValue?_control : ∀ n < 0x20,
    unitValue? '0' '0' (hexDigit (n / 16)) (hexDigit (n % 16)) = some n := by
  decide

theorem ofUnit_toNat {c : Char} (hc : c.toNat < 0x20) : ofUnit c.toNat = char c := by
  have hhigh : isHigh c.toNat = false := by
    rw [isHigh, decide_eq_false (by omega), Bool.false_and]
  have hlow : isLow c.toNat = false := by
    rw [isLow, decide_eq_false (by omega), Bool.false_and]
  rw [ofUnit, hhigh, hlow, Bool.false_or, if_neg Bool.false_ne_true, Char.ofNat_toNat]

theorem written_escapeChar (c : Char) : Written (char c) (escapeChar c) := by
  unfold escapeChar
  split_ifs with hquote hslash _ _ _ _ _ hcontrol
  -- the characters with a letter of their own
  any_goals
      subst c
      exact .escaped rfl
  · rw [← ofUnit_toNat hcontrol]
    exact .unit (unitValue?_control c.toNat hcontrol)
  · exact .plain hquote hslash (Nat.le_of_not_lt hcontrol)

theorem allWritten_ofString (s : String) :
    AllWritten (ofString s) (s.toList.flatMap escapeChar) := by
  rw [ofString]
  induction s.toList with
  | nil => exact .nil
  | cons c cs ih =>
      rw [List.map_cons, List.flatMap_cons]
      exact .cons (written_escapeChar c) ih

end Piece

theorem isString_ofString (s : String) : IsString (.str (Piece.ofString s)) s :=
  .str (Piece.denotes_ofString s)

/-! ### The document of a value -/

mutual

/-- The document as which a value is written. -/
def toDoc : Json → Doc
  | .null => .null
  | .bool b => .bool b
  | .num n => .num n
  | .str s => .str (Piece.ofString s)
  | .arr items => .arr (itemDocs items) .closed
  | .obj members => .obj (memberDocs members) .closed

def itemDocs : List Json → List Doc
  | [] => []
  | v :: vs => toDoc v :: itemDocs vs

def memberDocs : List (String × Json) → List (List Piece × Doc)
  | [] => []
  | (k, v) :: ms => (Piece.ofString k, toDoc v) :: memberDocs ms

end

theorem itemDocs_eq_map (items : List Json) : itemDocs items = items.map toDoc := by
  induction items with
  | nil => rfl
  | cons v vs ih => rw [itemDocs, ih, List.map_cons]

theorem memberDocs_eq_map (members : List (String × Json)) :
    memberDocs members = members.map fun m => (Piece.ofString m.1, m.2.toDoc) := by
  induction members with
  | nil => rfl
  | cons m ms ih => rw [memberDocs, ih, List.map_cons]

/-! ### Objects with the fields of a record -/

theorem valuesOf_of_nodup {δ : Type} {entries : List (String × δ)} {e : String × δ}
    (hnodup : (entries.map Prod.fst).Nodup) (he : e ∈ entries) :
    valuesOf e.1 entries = [e.2] := by
  induction entries with
  | nil => cases he
  | cons x entries ih =>
      rw [List.map_cons, List.nodup_cons] at hnodup
      rcases List.mem_cons.1 he with rfl | he
      · have hnone : valuesOf e.1 entries = [] := by
          refine List.filterMap_eq_nil_iff.2 fun y hy => if_neg ?_
          intro heq
          exact hnodup.1 (heq ▸ List.mem_map_of_mem hy)
        rw [valuesOf_cons_self, hnone]
      · have hne : x.1 ≠ e.1 := by
          intro heq
          exact hnodup.1 (heq ▸ List.mem_map_of_mem he)
        rw [valuesOf_cons_of_ne hne, ih hnodup.2 he]

/-- An object whose keys are the names of the fields, each once, supplies every field. -/
theorem supplies_obj {names : List String} {members : List (String × Json)}
    {given : List (Option Doc)} (hnames : members.map Prod.fst = names)
    (hgiven : members.map (fun m => some m.2.toDoc) = given) (hnodup : names.Nodup) :
    Supplies names (obj members).toDoc given := by
  subst hnames hgiven
  let entries := members.map fun m => (m.1, m.2.toDoc)
  have hkeys : entries.map Prod.fst = members.map Prod.fst := by
    rw [List.map_map]
    rfl
  have hvalues : ∀ m ∈ members, valuesOf m.1 entries = [m.2.toDoc] := by
    intro m hm
    have he : (m.1, m.2.toDoc) ∈ entries := List.mem_map_of_mem hm
    exact valuesOf_of_nodup (hkeys ▸ hnodup) he
  have hkeyed : Keyed (members.map fun m => (Piece.ofString m.1, m.2.toDoc)) entries := by
    rw [Keyed, List.forall₂_map_left_iff, List.forall₂_map_right_iff, List.forall₂_same]
    exact fun m _ => ⟨Piece.denotes_ofString m.1, rfl⟩
  rw [toDoc, memberDocs_eq_map]
  refine .obj hkeyed ?_ ?_
  · rw [List.forall₂_map_left_iff, List.forall₂_map_right_iff, List.forall₂_same]
    exact hvalues
  · intro e he hname
    exact absurd (hkeys ▸ List.mem_map_of_mem he) hname

theorem isList_arr {α : Type} {R : Doc → α → Prop} {f : α → Json} {as : List α}
    (h : ∀ a ∈ as, R (f a).toDoc a) : IsList R (arr (as.map f)).toDoc as := by
  rw [toDoc, itemDocs_eq_map, List.map_map]
  refine .arr ?_
  rw [List.forall₂_map_left_iff, List.forall₂_same]
  exact h

/-! ### Spelling tokens one after the other -/

namespace Token

variable {t : Token} {ts us vs : List Token} {s s' w cs ds : List Char}

theorem spaces_nil : Spaces [] :=
  fun _ hc => absurd hc List.not_mem_nil

theorem Spelled.spaces_append (hs : Spaces s) (h : Spelled ts cs) : Spelled ts (s ++ cs) := by
  induction s with
  | nil => exact h
  | cons c s ih =>
      obtain ⟨hc, hs⟩ := List.forall_mem_cons.1 hs
      exact (ih hs).space_cons hc

theorem Spelled.token_cons (hw : Written t w) (h : Spelled ts cs) :
    Spelled (t :: ts) (w ++ cs) :=
  .cons spaces_nil hw h

theorem spelled_singleton (hw : Written t w) : Spelled [t] w := by
  have h := (Spelled.nil spaces_nil).token_cons hw
  rwa [List.append_nil] at h

theorem Spelled.append (h : Spelled ts cs) (h' : Spelled us ds) :
    Spelled (ts ++ us) (cs ++ ds) := by
  induction h with
  | nil hs => exact h'.spaces_append hs
  | cons hs hw _ ih =>
      rw [List.append_assoc, List.append_assoc]
      exact .cons hs hw ih

theorem commas_cons (us : List Token) (tss : List (List Token)) :
    Doc.commas (us :: tss) = us ++ tss.flatMap (.comma :: ·) := by
  induction tss generalizing us with
  | nil => rw [Doc.commas_singleton, List.flatMap_nil, List.append_nil]
  | cons vs tss ih => rw [Doc.commas_cons_cons, ih, List.flatMap_cons, List.cons_append]

/-- Entries between brackets, with spaces behind the first and before the last bracket. -/
theorem Spelled.bracketed {first last : Token} {a b : List Char} {tss : List (List Token)}
    (hfirst : Written first a) (hs : Spaces s) (h : Spelled us cs)
    (hrest : Spelled (tss.flatMap (.comma :: ·)) ds) (hs' : Spaces s') (hlast : Written last b) :
    Spelled (first :: (Doc.commas (us :: tss) ++ [last]))
      (a ++ s ++ cs ++ ds ++ s' ++ b) := by
  have hclose := (spelled_singleton hlast).spaces_append hs'
  have hinner := ((h.append hrest).append hclose).spaces_append hs
  rw [commas_cons]
  simpa using hinner.token_cons hfirst

theorem Spelled.entry (hs : Spaces s) (h : Spelled us cs) (hrest : Spelled vs ds) :
    Spelled (.comma :: us ++ vs) (',' :: s ++ cs ++ ds) := by
  have hinner := (h.append hrest).spaces_append hs
  simpa using hinner.token_cons .comma

theorem Spelled.member (key : String) (hs : Spaces s) (h : Spelled us cs) :
    Spelled (.str (Piece.ofString key) :: .colon :: us) (writeString key ++ ':' :: s ++ cs) := by
  have hvalue := (h.spaces_append hs).token_cons .colon
  have hkey : Written (.str (Piece.ofString key)) (writeString key) :=
    .str (Piece.allWritten_ofString key)
  simpa using hvalue.token_cons hkey

theorem written_writeWord (b : Bool) : Written (.bool b) (writeWord b) := by
  cases b with
  | true => exact .trueWord
  | false => exact .falseWord

end Token

/-! ### Texts of values -/

open Token (Spelled Spaces spaces_nil spelled_singleton)

mutual

theorem spelled_compactChars : ∀ v : Json, Spelled v.toDoc.tokens (compactChars v)
  | .null => spelled_singleton .nullWord
  | .bool b => spelled_singleton (Token.written_writeWord b)
  | .num n => spelled_singleton (.num n.written_write)
  | .str s => spelled_singleton (.str (Piece.allWritten_ofString s))
  | .arr [] => (spelled_singleton .closeArr).token_cons .openArr
  | .arr (v :: vs) => by
      have h := (spelled_compactChars v).bracketed .openArr spaces_nil (spelled_compactItems vs)
        spaces_nil .closeArr
      simpa [toDoc, itemDocs, Doc.tokens, Doc.itemTokens, Doc.closing, compactChars] using h
  | .obj [] => (spelled_singleton .closeObj).token_cons .openObj
  | .obj ((k, v) :: ms) => by
      have h := ((spelled_compactChars v).member k spaces_nil).bracketed .openObj spaces_nil
        (spelled_compactMembers ms) spaces_nil .closeObj
      simpa [toDoc, memberDocs, Doc.tokens, Doc.memberTokens, Doc.closing, compactChars] using h

theorem spelled_compactItems : ∀ vs : List Json,
    Spelled ((Doc.itemTokens (itemDocs vs)).flatMap (.comma :: ·)) (compactItems vs)
  | [] => .nil spaces_nil
  | v :: vs => by
      have h := (spelled_compactChars v).entry spaces_nil (spelled_compactItems vs)
      simpa [itemDocs, Doc.itemTokens, compactItems] using h

theorem spelled_compactMembers : ∀ ms : List (String × Json),
    Spelled ((Doc.memberTokens (memberDocs ms)).flatMap (.comma :: ·)) (compactMembers ms)
  | [] => .nil spaces_nil
  | (k, v) :: ms => by
      have h := ((spelled_compactChars v).member k spaces_nil).entry spaces_nil
        (spelled_compactMembers ms)
      simpa [memberDocs, Doc.memberTokens, compactMembers] using h

end

theorem spaces_newline (level : Nat) : Spaces (newline level) := by
  intro c hc
  rcases List.mem_cons.1 hc with rfl | hc
  · rfl
  · rw [List.eq_of_mem_replicate hc]
    rfl

theorem spaces_blank : Spaces [' '] := by
  intro c hc
  rw [List.mem_singleton.1 hc]
  rfl

mutual

theorem spelled_prettyChars (level : Nat) : ∀ v : Json, Spelled v.toDoc.tokens (prettyChars level v)
  | .null => spelled_singleton .nullWord
  | .bool b => spelled_singleton (Token.written_writeWord b)
  | .num n => spelled_singleton (.num n.written_write)
  | .str s => spelled_singleton (.str (Piece.allWritten_ofString s))
  | .arr [] => (spelled_singleton .closeArr).token_cons .openArr
  | .arr (v :: vs) => by
      have h := (spelled_prettyChars (level + 1) v).bracketed .openArr (spaces_newline (level + 1))
        (spelled_prettyItems (level + 1) vs) (spaces_newline level) .closeArr
      simpa [toDoc, itemDocs, Doc.tokens, Doc.itemTokens, Doc.closing, prettyChars] using h
  | .obj [] => (spelled_singleton .closeObj).token_cons .openObj
  | .obj ((k, v) :: ms) => by
      have h := ((spelled_prettyChars (level + 1) v).member k spaces_blank).bracketed .openObj
        (spaces_newline (level + 1)) (spelled_prettyMembers (level + 1) ms) (spaces_newline level)
        .closeObj
      simpa [toDoc, memberDocs, Doc.tokens, Doc.memberTokens, Doc.closing, prettyChars] using h

theorem spelled_prettyItems (level : Nat) : ∀ vs : List Json,
    Spelled ((Doc.itemTokens (itemDocs vs)).flatMap (.comma :: ·)) (prettyItems level vs)
  | [] => .nil spaces_nil
  | v :: vs => by
      have h := (spelled_prettyChars level v).entry (spaces_newline level)
        (spelled_prettyItems level vs)
      simpa [itemDocs, Doc.itemTokens, prettyItems] using h

theorem spelled_prettyMembers (level : Nat) : ∀ ms : List (String × Json),
    Spelled ((Doc.memberTokens (memberDocs ms)).flatMap (.comma :: ·)) (prettyMembers level ms)
  | [] => .nil spaces_nil
  | (k, v) :: ms => by
      have h := ((spelled_prettyChars level v).member k spaces_blank).entry (spaces_newline level)
        (spelled_prettyMembers level ms)
      simpa [memberDocs, Doc.memberTokens, prettyMembers] using h

end

/-! ### Reading what is written -/

variable {α : Type} {decoder : Decoder α} {R : Doc → α → Prop} {v : Json} {a : α}

theorem Reads.ofText_compact (h : Reads decoder R) (hv : R v.toDoc a) :
    decoder.ofText v.compact = .ok a := by
  refine (h.ofText_eq_ok_iff _ a).2 ⟨v.toDoc, ?_, hv⟩
  rw [compact, String.toList_ofList]
  exact spelled_compactChars v

theorem Reads.ofText_pretty (h : Reads decoder R) (hv : R v.toDoc a) :
    decoder.ofText v.pretty = .ok a := by
  refine (h.ofText_eq_ok_iff _ a).2 ⟨v.toDoc, ?_, hv⟩
  rw [pretty, String.toList_ofList]
  exact spelled_prettyChars 0 v

end TaskFlow.Json
