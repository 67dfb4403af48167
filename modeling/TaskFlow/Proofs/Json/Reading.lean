import TaskFlow.Proofs.Json.Value
import TaskFlow.Proofs.Json.Write

/-! # Reading a value back

The document as which a value is written is whole, and it tells the value (`toDoc_injective`).  So a
text over several lines with spaces behind it is read as the document of this value and of no other
(`parse_pretty_iff`), and as the value itself if all numbers in it are `Readable`
(`parse_pretty`). -/

namespace TaskFlow.Json

variable {v w : Json} {s : List Char}

/-! ### Values and their documents -/

mutual

theorem whole_toDoc : ∀ v : Json, v.toDoc.Whole
  | .null => .null
  | .bool b => .bool b
  | .num n => .num n
  | .str s => .str (Piece.ofString s)
  | .arr items => .arr (whole_itemDocs items)
  | .obj members => .obj (whole_memberDocs members)

theorem whole_itemDocs : ∀ vs : List Json, ∀ d ∈ itemDocs vs, d.Whole
  | [] => List.forall_mem_nil _
  | v :: vs => List.forall_mem_cons.2 ⟨whole_toDoc v, whole_itemDocs vs⟩

theorem whole_memberDocs : ∀ ms : List (String × Json), ∀ m ∈ memberDocs ms, m.2.Whole
  | [] => List.forall_mem_nil _
  | (_, v) :: ms => List.forall_mem_cons.2 ⟨whole_toDoc v, whole_memberDocs ms⟩

end

theorem Piece.ofString_injective : Function.Injective Piece.ofString := by
  intro s t h
  have hchar : Function.Injective Piece.char := fun _ _ h => Piece.char.inj h
  exact String.toList_inj.1 (List.map_injective_iff.2 hchar h)

mutual

/-- A value is told by its document. -/
theorem toDoc_injective : ∀ v w : Json, v.toDoc = w.toDoc → v = w
  | .null, w, h => by cases w <;> first | rfl | cases h
  | .bool b, w, h => by
      cases w with
      | bool c =>
          cases h
          rfl
      | _ => cases h
  | .num n, w, h => by
      cases w with
      | num m =>
          cases h
          rfl
      | _ => cases h
  | .str s, w, h => by
      cases w with
      | str t => rw [Piece.ofString_injective (Doc.str.inj h)]
      | _ => cases h
  | .arr vs, w, h => by
      cases w with
      | arr ws => rw [itemDocs_injective vs ws (Doc.arr.inj h).1]
      | _ => cases h
  | .obj ms, w, h => by
      cases w with
      | obj es => rw [memberDocs_injective ms es (Doc.obj.inj h).1]
      | _ => cases h

theorem itemDocs_injective : ∀ vs ws : List Json, itemDocs vs = itemDocs ws → vs = ws
  | [], ws, h => by
      cases ws with
      | nil => rfl
      | cons w ws => cases h
  | v :: vs, ws, h => by
      cases ws with
      | nil => cases h
      | cons w ws =>
          obtain ⟨hv, hvs⟩ := List.cons.inj h
          rw [toDoc_injective v w hv, itemDocs_injective vs ws hvs]

theorem memberDocs_injective : ∀ ms es : List (String × Json), memberDocs ms = memberDocs es → ms = es
  | [], es, h => by
      cases es with
      | nil => rfl
      | cons e es => cases h
  | (k, v) :: ms, es, h => by
      cases es with
      | nil => cases h
      | cons e es =>
          obtain ⟨hm, hms⟩ := List.cons.inj h
          obtain ⟨hk, hv⟩ := Prod.mk.inj hm
          rw [Piece.ofString_injective hk, toDoc_injective v e.2 hv, memberDocs_injective ms es hms]

end

/-! ### Numbers that can be read -/

/-- No numeral in the value is too large to be read. -/
inductive Readable : Json → Prop
  | null : Readable .null
  | bool (b : Bool) : Readable (.bool b)
  | num {n : Numeral} : n.number?.isSome = true → Readable (.num n)
  | str (s : String) : Readable (.str s)
  | arr {items : List Json} : (∀ v ∈ items, Readable v) → Readable (.arr items)
  | obj {members : List (String × Json)} : (∀ m ∈ members, Readable m.2) → Readable (.obj members)

theorem readable_nat {n : Nat} (h : n ≤ Numeral.maxSignificand) : Readable (.nat n) := by
  refine .num ?_
  have hsigned : (Numeral.ofNat n).negative = true →
      0 < (Numeral.ofNat n).whole ∧ (Numeral.ofNat n).whole ≤ 9223372036854775808 := nofun
  rw [Numeral.number?, if_pos ⟨rfl, rfl, h, hsigned⟩]
  rfl

/-- The document of a value whose numbers can be read has this value. -/
theorem Readable.toJson_toDoc (h : Readable v) : v.toDoc.toJson = .ok v := by
  induction h with
  | null => rfl
  | bool b => rfl
  | num hn => rw [toDoc, Doc.toJson, numberOf, if_pos hn, Except.map]
  | str s =>
      have htext : textOf (Piece.ofString s) = .ok s :=
        textOf_eq_ok_iff.2 (Piece.denotes_ofString s)
      rw [toDoc, Doc.toJson, htext, Except.map]
  | @arr items _ ih =>
      have hitems : Doc.itemsToJson (itemDocs items) = .ok items := by
        rw [itemsToJson_eq_mapM, itemDocs_eq_map, mapM_eq_ok_iff, List.forall₂_map_left_iff,
          List.forall₂_same]
        exact ih
      rw [toDoc, Doc.toJson, hitems]
      rfl
  | @obj members _ ih =>
      have hmembers : Doc.membersToJson (memberDocs members) = .ok members := by
        rw [membersToJson_eq_ok_iff, memberDocs_eq_map, List.forall₂_map_left_iff,
          List.forall₂_same]
        exact fun m hm => ⟨textOf_eq_ok_iff.2 (Piece.denotes_ofString m.1), ih m hm⟩
      rw [toDoc, Doc.toJson, hmembers]
      rfl

/-- Objects in the value do not give a key twice, and given `fits` its numbers can be read. -/
structure Sound (fits : Prop) (v : Json) : Prop where
  distinct : v.DistinctKeys
  readable : fits → v.Readable

namespace Sound

variable {fits : Prop}

theorem null : Sound fits .null :=
  ⟨.null, fun _ => .null⟩

theorem bool (b : Bool) : Sound fits (.bool b) :=
  ⟨.bool b, fun _ => .bool b⟩

theorem str (s : String) : Sound fits (.str s) :=
  ⟨.str s, fun _ => .str s⟩

theorem nat {n : Nat} (h : fits → n ≤ Numeral.maxSignificand) : Sound fits (.nat n) :=
  ⟨.num _, fun hfits => readable_nat (h hfits)⟩

theorem arr {items : List Json} (h : ∀ v ∈ items, Sound fits v) : Sound fits (.arr items) :=
  ⟨.arr fun v hv => (h v hv).distinct, fun hfits => .arr fun v hv => (h v hv).readable hfits⟩

theorem obj {members : List (String × Json)} (hkeys : (members.map Prod.fst).Nodup)
    (h : ∀ m ∈ members, Sound fits m.2) : Sound fits (.obj members) :=
  ⟨.obj hkeys fun m hm => (h m hm).distinct, fun hfits => .obj fun m hm => (h m hm).readable hfits⟩

theorem strings {α : Type} (f : α → String) (as : List α) :
    Sound fits (.arr (as.map fun a => .str (f a))) := by
  refine .arr fun v hv => ?_
  obtain ⟨a, -, rfl⟩ := List.mem_map.1 hv
  exact .str (f a)

end Sound

/-! ### Texts over several lines -/

/-- A value over several lines, with spaces behind it, is read as the document of this value and of
no other. -/
theorem parse_pretty_iff (hs : Token.Spaces s) :
    Doc.parse (Token.scan (v.pretty.toList ++ s)) = (w.toDoc, []) ↔ w = v := by
  have hspelled : Token.Spelled v.toDoc.tokens (v.pretty.toList ++ s) := by
    rw [pretty, String.toList_ofList]
    simpa using (spelled_prettyChars 0 v).append (.nil hs)
  rw [Doc.parse_scan_of_spelled (whole_toDoc v) hspelled, Prod.mk.injEq]
  constructor
  · intro h
    exact (toDoc_injective v w h.1).symm
  · rintro rfl
    exact ⟨rfl, rfl⟩

theorem parse_pretty (h : v.Readable) {text : String} (hs : Token.Spaces s)
    (htext : text.toList = v.pretty.toList ++ s) : parse text = .ok v := by
  rw [parse, htext, (parse_pretty_iff hs).2 rfl]
  exact bind_eq_ok_iff.2 ⟨v, h.toJson_toDoc, rfl⟩

/-- A list over several lines ends with its bracket. -/
theorem getLast?_prettyChars_arr (level : Nat) (items : List Json) :
    (prettyChars level (.arr items)).getLast? = some ']' := by
  cases items with
  | nil => rfl
  | cons v vs => exact List.getLast?_concat

/-- An object over several lines ends with its bracket. -/
theorem getLast?_prettyChars_obj (level : Nat) (members : List (String × Json)) :
    (prettyChars level (.obj members)).getLast? = some '}' := by
  cases members with
  | nil => rfl
  | cons m ms => exact List.getLast?_concat

end TaskFlow.Json
