import Mathlib.Data.List.Forall2
import TaskFlow.Json.Decoder
import TaskFlow.Proofs.Json.Doc

/-! # Shapes of documents

A shape relates the documents of a kind to the values that are written by them: `IsString`,
`IsBool`, `IsNullable R`, `IsList R`.  A decoder `Reads` a shape when it accepts exactly the
documents of that shape, with the values written by them, and all of them are whole; then it accepts
exactly the texts that spell such a document (`Reads.ofText_eq_ok_iff`). -/

namespace TaskFlow.Json

variable {α β : Type} {doc : Doc}

/-! ### Shapes -/

/-- A string in which no half of a surrogate pair stands alone. -/
inductive IsString : Doc → String → Prop
  | str {pieces : List Piece} {s : String} :
      Piece.Denotes pieces s.toList → IsString (.str pieces) s

/-- One of the words for the truth values. -/
inductive IsBool : Doc → Bool → Prop
  | bool (b : Bool) : IsBool (.bool b) b

/-- Null or a value of the given shape. -/
inductive IsNullable (R : Doc → α → Prop) : Doc → Option α → Prop
  | null : IsNullable R .null none
  | some {doc : Doc} {a : α} : R doc a → IsNullable R doc (some a)

/-- An array of values of the given shape. -/
inductive IsList (R : Doc → α → Prop) : Doc → List α → Prop
  | arr {items : List Doc} {as : List α} :
      List.Forall₂ R items as → IsList R (.arr items .closed) as

/-- The decoder accepts the documents of that shape and no others. -/
structure Reads (decoder : Decoder α) (R : Doc → α → Prop) : Prop where
  ofDoc_eq_ok_iff (doc : Doc) (a : α) : decoder.ofDoc doc = .ok a ↔ R doc a
  whole {doc : Doc} {a : α} : R doc a → doc.Whole

/-! ### Problems of a text -/

theorem inText_eq_ok_iff {r : Except Problem α} {a : α} : inText r = .ok a ↔ r = .ok a := by
  exact mapError_eq_ok_iff

theorem inShape_eq_ok_iff {r : Except Mismatch α} {a : α} : inShape r = .ok a ↔ r = .ok a := by
  exact mapError_eq_ok_iff

theorem read_ending_eq_ok_iff (ending : Ending) : ending.read = .ok () ↔ ending = .closed := by
  cases ending <;> simp [Ending.read]

theorem textOf_eq_ok_iff {pieces : List Piece} {s : String} :
    textOf pieces = .ok s ↔ Piece.Denotes pieces s.toList := by
  rw [textOf, map_eq_ok_iff]
  constructor
  · rintro ⟨cs, hcs, rfl⟩
    rw [String.toList_ofList]
    exact Piece.resolve_eq_ok_iff.1 hcs
  · intro h
    exact ⟨_, Piece.resolve_eq_ok_iff.2 h, String.ofList_toList⟩

/-- A traversal succeeds exactly if each of its steps does. -/
theorem mapM_eq_ok_iff {ε : Type} {f : α → Except ε β} {as : List α} {bs : List β} :
    as.mapM f = .ok bs ↔ List.Forall₂ (fun a b => f a = .ok b) as bs := by
  induction as generalizing bs with
  | nil =>
      rw [List.mapM_nil, List.forall₂_nil_left_iff]
      exact ⟨fun h => by cases h; rfl, fun h => by rw [h]; rfl⟩
  | cons a as ih =>
      rw [List.mapM_cons, bind_eq_ok_iff, List.forall₂_cons_left_iff]
      constructor
      · rintro ⟨b, hb, h⟩
        obtain ⟨bs', hbs, h⟩ := bind_eq_ok_iff.1 h
        cases h
        exact ⟨b, bs', hb, ih.1 hbs, rfl⟩
      · rintro ⟨b, bs', hb, hbs, rfl⟩
        exact ⟨b, hb, bind_eq_ok_iff.2 ⟨bs', ih.2 hbs, rfl⟩⟩

namespace Decoder

theorem rejectDoc_ne_ok {expected : String} {a : α} : rejectDoc expected doc ≠ .ok a := by
  intro h
  obtain ⟨found, -, h⟩ := bind_eq_ok_iff.1 h
  cases h

/-! ### Reading values -/

theorem string_reads : Reads string IsString where
  ofDoc_eq_ok_iff doc s := by
    cases doc with
    | str pieces =>
        rw [string, inText_eq_ok_iff, textOf_eq_ok_iff]
        exact ⟨.str, fun h => by cases h; assumption⟩
    | _ => exact iff_of_false rejectDoc_ne_ok (by rintro ⟨⟩)
  whole := by
    intro doc s h
    cases h
    exact .str _

theorem bool_reads : Reads bool IsBool where
  ofDoc_eq_ok_iff doc b := by
    cases doc with
    | bool c => exact ⟨fun h => by cases h; exact .bool b, fun h => by cases h; rfl⟩
    | _ => exact iff_of_false rejectDoc_ne_ok (by rintro ⟨⟩)
  whole := by
    intro doc b h
    cases h
    exact .bool b

variable {d : Decoder α} {R : Doc → α → Prop}

theorem refine_reads (h : Reads d R) (check : α → Except Mismatch β) :
    Reads (d.refine check) fun doc b => ∃ a, R doc a ∧ check a = .ok b where
  ofDoc_eq_ok_iff doc b := by
    rw [refine, bind_eq_ok_iff]
    simp only [h.ofDoc_eq_ok_iff, inShape_eq_ok_iff]
  whole := by
    rintro doc b ⟨a, ha, -⟩
    exact h.whole ha

theorem nullable_reads (h : Reads d R) (hnull : ∀ a, ¬ R .null a) :
    Reads d.nullable (IsNullable R) where
  ofDoc_eq_ok_iff doc o := by
    have hother : (d.ofDoc doc).map some = .ok o ↔ ∃ a, R doc a ∧ some a = o := by
      simp only [map_eq_ok_iff, h.ofDoc_eq_ok_iff]
    cases doc with
    | null =>
        constructor
        · intro h
          cases h
          exact .null
        · intro h
          cases h with
          | null => rfl
          | some h => exact absurd h (hnull _)
    | _ =>
        refine hother.trans ?_
        constructor
        · intro h
          obtain ⟨a, ha, rfl⟩ := h
          exact .some ha
        · intro h
          cases h with
          | some h => exact ⟨_, h, rfl⟩
  whole := by
    intro doc o hdoc
    cases hdoc with
    | null => exact .null
    | some hdoc => exact h.whole hdoc

theorem list_reads (h : Reads d R) : Reads d.list (IsList R) where
  ofDoc_eq_ok_iff doc as := by
    cases doc with
    | arr items ending =>
        have hitems : ∀ bs, items.mapM d.ofDoc = .ok bs ↔ List.Forall₂ R items bs := by
          intro bs
          simp only [mapM_eq_ok_iff, h.ofDoc_eq_ok_iff]
        rw [list, bind_eq_ok_iff]
        constructor
        · rintro ⟨bs, hbs, h⟩
          obtain ⟨hending, h⟩ := bind_unit_eq_ok_iff.1 h
          cases h
          obtain rfl := (read_ending_eq_ok_iff ending).1 (inText_eq_ok_iff.1 hending)
          exact .arr ((hitems _).1 hbs)
        · intro h
          cases h with
          | arr has => exact ⟨as, (hitems as).2 has, rfl⟩
    | _ => exact iff_of_false rejectDoc_ne_ok (by rintro ⟨⟩)
  whole := by
    intro doc as hdoc
    cases hdoc with
    | arr has =>
        have hitems := has.imp fun item a ha => (⟨h.whole ha, ha⟩ : item.Whole ∧ R item a)
        exact .arr ((List.forall₂_and_left _ _).1 hitems).1

end Decoder

/-- A decoder accepts a text exactly if it spells a document of the shape that is read. -/
theorem Reads.ofText_eq_ok_iff {d : Decoder α} {R : Doc → α → Prop} (h : Reads d R) (text : String)
    (a : α) :
    d.ofText text = .ok a ↔ ∃ doc, Token.Spelled doc.tokens text.toList ∧ R doc a := by
  constructor
  · intro htext
    unfold Decoder.ofText at htext
    obtain ⟨⟨doc, rest⟩, hparse⟩ : ∃ result, Doc.parse (Token.scan text.toList) = result := ⟨_, rfl⟩
    rw [hparse] at htext
    obtain ⟨b, hdoc, htext⟩ := bind_eq_ok_iff.1 htext
    have hshape := (h.ofDoc_eq_ok_iff doc b).1 hdoc
    have hwhole := h.whole hshape
    have hscan := Doc.parse_tokens hparse hwhole
    cases rest with
    | cons t ts => cases htext
    | nil =>
        cases htext
        rw [List.append_nil] at hscan
        have hspelled := Token.scan_spelled text.toList (hscan ▸ hwhole.broken_not_mem)
        rw [hscan] at hspelled
        exact ⟨doc, hspelled, hshape⟩
  · rintro ⟨doc, hspelled, hdoc⟩
    unfold Decoder.ofText
    rw [Doc.parse_scan_of_spelled (h.whole hdoc) hspelled]
    exact bind_eq_ok_iff.2 ⟨a, (h.ofDoc_eq_ok_iff doc a).2 hdoc, rfl⟩

end TaskFlow.Json
