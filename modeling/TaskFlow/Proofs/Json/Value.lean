import Mathlib.Data.List.Forall2
import TaskFlow.Json.Basic
import TaskFlow.Proofs.Json.Shape

/-! # The value of a document

`Doc.HasValue doc v` says that the document has the value `v`, in which no object gives a key twice.
Document and value are then of one kind, and their parts correspond (`HasValue.matches_value`); and
the document is whole (`HasValue.whole`). -/

namespace TaskFlow.Json

variable {α β : Type} {doc : Doc} {v : Json}

/-- No object in the value gives a key twice. -/
inductive DistinctKeys : Json → Prop
  | null : DistinctKeys .null
  | bool (b : Bool) : DistinctKeys (.bool b)
  | num (n : Numeral) : DistinctKeys (.num n)
  | str (s : String) : DistinctKeys (.str s)
  | arr {items : List Json} : (∀ v ∈ items, DistinctKeys v) → DistinctKeys (.arr items)
  | obj {members : List (String × Json)} :
      (members.map Prod.fst).Nodup → (∀ m ∈ members, DistinctKeys m.2) →
      DistinctKeys (.obj members)

@[simp]
theorem distinctKeys_null : DistinctKeys .null :=
  .null

@[simp]
theorem distinctKeys_str (s : String) : DistinctKeys (.str s) :=
  .str s

@[simp]
theorem distinctKeys_arr_iff {items : List Json} :
    DistinctKeys (.arr items) ↔ ∀ v ∈ items, v.DistinctKeys := by
  constructor
  · intro h
    cases h with
    | arr hitems => exact hitems
  · exact .arr

@[simp]
theorem distinctKeys_obj_iff {members : List (String × Json)} :
    DistinctKeys (.obj members) ↔
      (members.map Prod.fst).Nodup ∧ ∀ m ∈ members, m.2.DistinctKeys := by
  constructor
  · intro h
    cases h with
    | obj hnodup hmembers => exact ⟨hnodup, hmembers⟩
  · rintro ⟨hnodup, hmembers⟩
    exact .obj hnodup hmembers

/-- The document has that value, and no object in it gives a key twice. -/
structure Doc.HasValue (doc : Doc) (v : Json) : Prop where
  toJson_eq : doc.toJson = .ok v
  distinct : v.DistinctKeys

/-- The member of a document has that key and that value. -/
def MemberValue (m : List Piece × Doc) (e : String × Json) : Prop :=
  textOf m.1 = .ok e.1 ∧ m.2.HasValue e.2

/-! ### Values of arrays and objects -/

theorem itemsToJson_eq_mapM (items : List Doc) : Doc.itemsToJson items = items.mapM Doc.toJson := by
  induction items with
  | nil => rfl
  | cons d ds ih => rw [Doc.itemsToJson, List.mapM_cons, ih]

theorem membersToJson_eq_ok_iff {members : List (List Piece × Doc)} {ms : List (String × Json)} :
    Doc.membersToJson members = .ok ms ↔
      List.Forall₂ (fun m e => textOf m.1 = .ok e.1 ∧ m.2.toJson = .ok e.2) members ms := by
  induction members generalizing ms with
  | nil =>
      rw [Doc.membersToJson, List.forall₂_nil_left_iff]
      exact ⟨fun h => by cases h; rfl, fun h => by rw [h]⟩
  | cons m members ih =>
      obtain ⟨k, d⟩ := m
      rw [Doc.membersToJson, bind_eq_ok_iff, List.forall₂_cons_left_iff]
      constructor
      · rintro ⟨key, hkey, h⟩
        obtain ⟨v, hv, h⟩ := bind_eq_ok_iff.1 h
        obtain ⟨vs, hvs, h⟩ := bind_eq_ok_iff.1 h
        cases h
        exact ⟨(key, v), vs, ⟨hkey, hv⟩, ih.1 hvs, rfl⟩
      · rintro ⟨⟨key, v⟩, vs, ⟨hkey, hv⟩, hvs, rfl⟩
        exact ⟨key, hkey, bind_eq_ok_iff.2 ⟨v, hv, bind_eq_ok_iff.2 ⟨vs, ih.2 hvs, rfl⟩⟩⟩

/-- What holds of each entry on the right goes into the relation. -/
theorem forall₂_and_right {R : α → β → Prop} {p : β → Prop} {as : List α} {bs : List β}
    (h : List.Forall₂ R as bs) (hp : ∀ b ∈ bs, p b) :
    List.Forall₂ (fun a b => R a b ∧ p b) as bs := by
  have hboth := (List.forall₂_and_left bs as).2 ⟨hp, h.flip⟩
  exact hboth.flip.imp fun _ _ hab => ⟨hab.2, hab.1⟩

/-- The document and the value are of one kind, and their parts have values. -/
inductive Doc.Matches : Doc → Json → Prop
  | null : Matches .null .null
  | bool (b : Bool) : Matches (.bool b) (.bool b)
  | num (n : Numeral) : Matches (.num n) (.num n)
  | str {pieces : List Piece} {s : String} : textOf pieces = .ok s → Matches (.str pieces) (.str s)
  | arr {items : List Doc} {vs : List Json} :
      List.Forall₂ HasValue items vs → Matches (.arr items .closed) (.arr vs)
  | obj {members : List (List Piece × Doc)} {ms : List (String × Json)} :
      (ms.map Prod.fst).Nodup → List.Forall₂ MemberValue members ms →
      Matches (.obj members .closed) (.obj ms)

theorem numberOf_eq_ok {n m : Numeral} (h : numberOf n = .ok m) : m = n := by
  rw [numberOf] at h
  split at h
  · exact (Except.ok.inj h).symm
  · cases h

namespace Doc.HasValue

theorem matches_value (h : doc.HasValue v) : doc.Matches v := by
  obtain ⟨htoJson, hdistinct⟩ := h
  cases doc with
  | null =>
      cases htoJson
      exact .null
  | bool b =>
      cases htoJson
      exact .bool b
  | num n =>
      obtain ⟨m, hm, rfl⟩ := map_eq_ok_iff.1 htoJson
      rw [numberOf_eq_ok hm]
      exact .num n
  | str pieces =>
      obtain ⟨s, hs, rfl⟩ := map_eq_ok_iff.1 htoJson
      exact .str hs
  | arr items ending =>
      rw [Doc.toJson, itemsToJson_eq_mapM] at htoJson
      obtain ⟨vs, hvs, htoJson⟩ := bind_eq_ok_iff.1 htoJson
      obtain ⟨hending, htoJson⟩ := bind_unit_eq_ok_iff.1 htoJson
      obtain rfl := (read_ending_eq_ok_iff ending).1 hending
      cases htoJson
      have hboth := forall₂_and_right (mapM_eq_ok_iff.1 hvs) (distinctKeys_arr_iff.1 hdistinct)
      exact .arr (hboth.imp fun _ _ h => ⟨h.1, h.2⟩)
  | obj members ending =>
      rw [Doc.toJson] at htoJson
      obtain ⟨ms, hms, htoJson⟩ := bind_eq_ok_iff.1 htoJson
      obtain ⟨hending, htoJson⟩ := bind_unit_eq_ok_iff.1 htoJson
      obtain rfl := (read_ending_eq_ok_iff ending).1 hending
      cases htoJson
      obtain ⟨hnodup, hmembers⟩ := distinctKeys_obj_iff.1 hdistinct
      have hboth := forall₂_and_right (membersToJson_eq_ok_iff.1 hms) hmembers
      exact .obj hnodup (hboth.imp fun _ _ h => ⟨h.1.1, h.1.2, h.2⟩)
  | broken b => cases htoJson

/-- What has a value is whole. -/
theorem whole (h : doc.HasValue v) : doc.Whole := by
  obtain ⟨htoJson, -⟩ := h
  revert v
  refine Doc.toJson.induct (fun doc => ∀ {v}, doc.toJson = .ok v → doc.Whole)
    (fun members => ∀ {ms}, Doc.membersToJson members = .ok ms → ∀ m ∈ members, m.2.Whole)
    (fun items => ∀ {vs}, Doc.itemsToJson items = .ok vs → ∀ d ∈ items, d.Whole)
    ?null ?bool ?num ?str ?arr ?obj ?broken ?noItem ?item ?noMember ?member doc
  case null => exact fun _ => .null
  case bool => exact fun b _ _ => .bool b
  case num => exact fun n _ _ => .num n
  case str => exact fun pieces _ _ => .str pieces
  case arr =>
      intro items ending ih v h
      rw [Doc.toJson] at h
      obtain ⟨vs, hvs, h⟩ := bind_eq_ok_iff.1 h
      obtain ⟨hending, -⟩ := bind_unit_eq_ok_iff.1 h
      exact whole_arr_iff.2 ⟨ih hvs, (read_ending_eq_ok_iff ending).1 hending⟩
  case obj =>
      intro members ending ih v h
      rw [Doc.toJson] at h
      obtain ⟨ms, hms, h⟩ := bind_eq_ok_iff.1 h
      obtain ⟨hending, -⟩ := bind_unit_eq_ok_iff.1 h
      exact whole_obj_iff.2 ⟨ih hms, (read_ending_eq_ok_iff ending).1 hending⟩
  case broken =>
      intro b v h
      cases h
  case noItem | noMember => exact fun _ => List.forall_mem_nil _
  case item =>
      intro d ds ihd ih vs h
      rw [Doc.itemsToJson] at h
      obtain ⟨v, hv, h⟩ := bind_eq_ok_iff.1 h
      obtain ⟨vs, hvs, -⟩ := bind_eq_ok_iff.1 h
      exact List.forall_mem_cons.2 ⟨ihd hv, ih hvs⟩
  case member =>
      intro k d ms ihd ih es h
      rw [Doc.membersToJson] at h
      obtain ⟨key, -, h⟩ := bind_eq_ok_iff.1 h
      obtain ⟨v, hv, h⟩ := bind_eq_ok_iff.1 h
      obtain ⟨vs, hvs, -⟩ := bind_eq_ok_iff.1 h
      exact List.forall_mem_cons.2 ⟨ihd hv, ih hvs⟩

/-- Only null has the value null. -/
theorem eq_null (h : doc.HasValue .null) : doc = .null := by
  cases h.matches_value with
  | null => rfl

end Doc.HasValue

/-! ### Texts -/

/-- A text that has a value is that of a document with this value. -/
theorem exists_doc_of_parse {text : String} (h : parse text = .ok v) :
    ∃ doc, Doc.parse (Token.scan text.toList) = (doc, []) ∧ doc.toJson = .ok v := by
  unfold parse at h
  obtain ⟨⟨doc, rest⟩, hparse⟩ : ∃ result, Doc.parse (Token.scan text.toList) = result := ⟨_, rfl⟩
  rw [hparse] at h
  obtain ⟨w, hw, h⟩ := bind_eq_ok_iff.1 h
  cases rest with
  | nil =>
      cases h
      exact ⟨doc, hparse, hw⟩
  | cons t ts => cases h

end TaskFlow.Json
