import Mathlib.Data.List.Perm.Basic
import TaskFlow.Proofs.Json.Choice
import TaskFlow.Proofs.Json.Members
import TaskFlow.Proofs.Json.Record
import TaskFlow.Proofs.Json.Value

/-! # A text and its value are read alike

A decoder reads the document of a text from left to right, and the members of a value that has been
parsed before in the order of their keys.  It is `Coherent` if it reads a document alike to its
value, whenever no object in the value gives a key twice.  Decoders of strings and truth values are
coherent, and so are those that are made of coherent ones: of lists (`list_coherent`), of records
(`Record.decoder_coherent`) and of choices (`choice_coherent`).

In a record the order of the members does not matter: sorting them by their keys only permutes them
(`byKey_perm`), and a record is made of what has been read by looking up the names of its fields
(`Record.exists_jsonMembers_of_perm`).

A coherent decoder reads a text exactly as it reads the value that the text parses to
(`Decoder.Coherent.toOption_ofText`). -/

namespace TaskFlow.Json

variable {α β γ σ : Type} {doc : Doc} {v : Json}

/-- Documents and their values are read alike. -/
def Decoder.Coherent (d : Decoder α) : Prop :=
  ∀ doc v, doc.HasValue v → ∀ a, d.ofDoc doc = .ok a ↔ d.ofJson v = .ok a

/-- Entries that are related alike to a third list. -/
theorem forall₂_iff_of_forall₂ {S : α → β → Prop} {R : α → γ → Prop} {R' : β → γ → Prop}
    {as : List α} {bs : List β} {cs : List γ} (h : List.Forall₂ S as bs)
    (hS : ∀ a b, S a b → ∀ c, R a c ↔ R' b c) : List.Forall₂ R as cs ↔ List.Forall₂ R' bs cs := by
  induction h generalizing cs with
  | nil => rw [List.forall₂_nil_left_iff, List.forall₂_nil_left_iff]
  | cons hab _ ih =>
      rw [List.forall₂_cons_left_iff, List.forall₂_cons_left_iff]
      simp only [hS _ _ hab, ih]

/-! ### Strings, truth values and lists -/

namespace Decoder

variable {d : Decoder α}

theorem rejectJson_ne_ok {expected : String} {a : α} : rejectJson expected v ≠ .ok a := by
  intro h
  cases h

theorem string_coherent : Coherent string := by
  intro doc v h s
  cases h.matches_value with
  | @str pieces t ht =>
      show inText (textOf pieces) = .ok s ↔ Except.ok t = .ok s
      rw [ht]
      exact ok_eq_ok_iff
  | _ => exact iff_of_false rejectDoc_ne_ok rejectJson_ne_ok

theorem bool_coherent : Coherent bool := by
  intro doc v h b
  cases h.matches_value with
  | bool c => exact ok_eq_ok_iff
  | _ => exact iff_of_false rejectDoc_ne_ok rejectJson_ne_ok

theorem map_coherent (h : d.Coherent) (f : α → β) : (d.map f).Coherent := by
  intro doc v hv b
  rw [map, map_eq_ok_iff, map_eq_ok_iff]
  simp only [h doc v hv]

theorem refine_coherent (h : d.Coherent) (check : α → Except Mismatch β) :
    (d.refine check).Coherent := by
  intro doc v hv b
  rw [refine, bind_eq_ok_iff, bind_eq_ok_iff]
  simp only [h doc v hv, inShape_eq_ok_iff]

theorem nullable_coherent (h : d.Coherent) : d.nullable.Coherent := by
  intro doc v hv o
  have hsome : (d.ofDoc doc).map some = .ok o ↔ (d.ofJson v).map some = .ok o := by
    rw [map_eq_ok_iff, map_eq_ok_iff]
    simp only [h doc v hv]
  cases hv.matches_value with
  | null => exact ok_eq_ok_iff
  | _ => exact hsome

theorem list_coherent (h : d.Coherent) : d.list.Coherent := by
  intro doc v hv as
  cases hv.matches_value with
  | @arr items vs hitems =>
      have hread : items.mapM d.ofDoc = .ok as ↔ vs.mapM d.ofJson = .ok as := by
        rw [mapM_eq_ok_iff, mapM_eq_ok_iff]
        exact forall₂_iff_of_forall₂ hitems h
      refine Iff.trans ?_ hread
      rw [list, bind_eq_ok_iff]
      constructor
      · rintro ⟨_, has, h⟩
        cases h
        exact has
      · intro has
        exact ⟨as, has, rfl⟩
  | _ => exact iff_of_false rejectDoc_ne_ok rejectJson_ne_ok

theorem taskType_coherent : Coherent taskType :=
  refine_coherent string_coherent _

end Decoder

/-! ### Members in the order of their keys -/

section byKey

variable {key : String} {ms ms' : List (String × Json)}

theorem insertMember_perm (h : key ∉ ms.map Prod.fst) :
    (insertMember key v ms).Perm ((key, v) :: ms) := by
  induction ms with
  | nil => exact .refl _
  | cons m ms ih =>
      obtain ⟨l, w⟩ := m
      rw [List.map_cons, List.mem_cons, not_or] at h
      rw [insertMember, if_neg h.1]
      split
      · exact .refl _
      · exact ((ih h.2).cons _).trans (.swap ..)

theorem foldl_insertMember_perm (hnodup : ((ms' ++ ms).map Prod.fst).Nodup) :
    (ms.foldl (fun sorted m => insertMember m.1 m.2 sorted) ms').Perm (ms' ++ ms) := by
  induction ms generalizing ms' with
  | nil => exact .of_eq (List.append_nil ms').symm
  | cons m ms ih =>
      have hperm : (insertMember m.1 m.2 ms' ++ ms).Perm (ms' ++ m :: ms) := by
        have hkey : m.1 ∉ ms'.map Prod.fst := by
          intro hmem
          rw [List.map_append, List.nodup_append] at hnodup
          exact hnodup.2.2 m.1 hmem m.1 List.mem_cons_self rfl
        exact ((insertMember_perm hkey).append_right ms).trans List.perm_middle.symm
      exact (ih ((hperm.map Prod.fst).nodup_iff.2 hnodup)).trans hperm

/-- Keys that differ are only put in order. -/
theorem byKey_perm (hnodup : (ms.map Prod.fst).Nodup) : (byKey ms).Perm ms :=
  foldl_insertMember_perm hnodup

end byKey

/-! ### Records -/

/-- Reads the value of a field in a parsed value. -/
abbrev Field.ofJson (f : Field σ) (v : Json) : Except Mismatch (σ → σ) :=
  f.set.ofJson v

namespace Record

variable {r : Record σ} {s : σ} {changes changes' : Given σ} {key : String}
  {ms ms' : List (String × Json)}

theorem jsonMembers_unknown (hkey : r.field? key = none) :
    r.jsonMembers changes ((key, v) :: ms) = r.jsonMembers changes ms := by
  rw [jsonMembers, hkey]

theorem jsonMembers_known {f : Field σ} (hkey : r.field? key = some f) :
    r.jsonMembers changes ((key, v) :: ms) = .ok changes' ↔
      ∃ change, f.set.ofJson v = .ok change ∧
        r.jsonMembers ((key, change) :: changes) ms = .ok changes' := by
  rw [jsonMembers, hkey]
  exact bind_eq_ok_iff

/-- In the order of a text, what is read from the members of a document is what is read from those
of its value. -/
theorem docMembers_iff_jsonMembers (hset : ∀ f ∈ r.fields, f.set.Coherent)
    {members : List (List Piece × Doc)} (hms : List.Forall₂ MemberValue members ms)
    (hnodup : (ms.map Prod.fst).Nodup) (hfresh : ∀ e ∈ ms, changes.lookup e.1 = none) :
    r.docMembers changes members = .ok changes' ↔ r.jsonMembers changes ms = .ok changes' := by
  induction hms generalizing changes with
  | nil => exact ok_eq_ok_iff
  | @cons m e members ms hm _ ih =>
      obtain ⟨k, d⟩ := m
      obtain ⟨key, v⟩ := e
      obtain ⟨hkey, hd⟩ := hm
      have hk := textOf_eq_ok_iff.1 hkey
      rw [List.map_cons, List.nodup_cons] at hnodup
      rw [List.forall_mem_cons] at hfresh
      cases hfield : r.field? key with
      | none =>
          rw [docMembers_unknown hk hfield, jsonMembers_unknown hfield]
          exact (and_iff_right hd.whole).trans (ih hnodup.2 hfresh.2)
      | some f =>
          rw [docMembers_known hk hfield, jsonMembers_known hfield]
          refine (and_iff_right hfresh.1).trans (exists_congr fun change => ?_)
          refine and_congr (hset f (List.mem_of_find?_eq_some hfield) d v hd change) ?_
          refine ih hnodup.2 fun e he => ?_
          have hne : key ≠ e.1 := fun h => hnodup.1 (List.mem_map.2 ⟨e, he, h.symm⟩)
          rw [lookup_cons_of_ne hne]
          exact hfresh.2 e he

/-- The member is read as this change. -/
def ReadAs (r : Record σ) (e : String × Json) (g : String × (σ → σ)) : Prop :=
  g.1 = e.1 ∧ ∃ f, r.field? e.1 = some f ∧ f.set.ofJson e.2 = .ok g.2

/-- The members that stand for fields. -/
def known (r : Record σ) (ms : List (String × Json)) : List (String × Json) :=
  ms.filter fun e => (r.field? e.1).isSome

theorem jsonMembers_eq_ok_iff :
    r.jsonMembers changes ms = .ok changes' ↔
      ∃ read, List.Forall₂ r.ReadAs (r.known ms) read ∧ changes' = read.reverse ++ changes := by
  induction ms generalizing changes with
  | nil =>
      simp only [jsonMembers, known, List.filter_nil, List.forall₂_nil_left_iff, exists_eq_left]
      exact ⟨fun h => (Except.ok.inj h).symm, fun h => congrArg Except.ok h.symm⟩
  | cons e ms ih =>
      obtain ⟨key, v⟩ := e
      cases hfield : r.field? key with
      | none =>
          have hknown : r.known ((key, v) :: ms) = r.known ms :=
            List.filter_cons_of_neg (by simp [hfield])
          rw [jsonMembers_unknown hfield, hknown, ih]
      | some f =>
          have hknown : r.known ((key, v) :: ms) = (key, v) :: r.known ms :=
            List.filter_cons_of_pos (by simp [hfield])
          simp only [jsonMembers_known hfield, hknown, ih, List.forall₂_cons_left_iff]
          constructor
          · rintro ⟨change, hchange, read, hread, rfl⟩
            refine ⟨_, ⟨(key, change), read, ⟨rfl, f, hfield, hchange⟩, hread, rfl⟩, ?_⟩
            simp
          · rintro ⟨_, ⟨⟨_, change⟩, read, ⟨rfl, f', hfield', hchange⟩, hread, rfl⟩, rfl⟩
            rw [hfield] at hfield'
            cases hfield'
            exact ⟨change, hchange, read, hread, by simp⟩

theorem map_fst_eq_of_readAs {read : Given σ} (h : List.Forall₂ r.ReadAs ms read) :
    read.map Prod.fst = ms.map Prod.fst := by
  induction h with
  | nil => rfl
  | cons hread _ ih => rw [List.map_cons, List.map_cons, hread.1, ih]

/-- A record is made of changes by looking up the names of its fields. -/
theorem ofMembers_congr (h : ∀ name, changes.lookup name = changes'.lookup name) :
    r.ofMembers changes = r.ofMembers changes' := by
  simp only [ofMembers, missing?, fill, isGiven_eq_isSome, h]

/-- The order of members with different keys does not matter. -/
theorem exists_jsonMembers_of_perm (hperm : ms.Perm ms') (hnodup : (ms.map Prod.fst).Nodup)
    (h : r.jsonMembers [] ms = .ok changes) :
    ∃ changes', r.jsonMembers [] ms' = .ok changes' ∧
      r.ofMembers changes' = r.ofMembers changes := by
  obtain ⟨read, hread, rfl⟩ := jsonMembers_eq_ok_iff.1 h
  -- Each member is read by itself, so the changes are permuted as the members are.
  obtain ⟨read', hread', hperm'⟩ := List.perm_comp_forall₂ (hperm.filter _).symm hread
  refine ⟨_, jsonMembers_eq_ok_iff.2 ⟨read', hread', rfl⟩, ofMembers_congr ?_⟩
  have hkeys : (read'.map Prod.fst).Nodup := by
    rw [map_fst_eq_of_readAs hread']
    exact ((hperm.map Prod.fst).nodup_iff.1 hnodup).sublist (List.filter_sublist.map _)
  rw [List.append_nil, List.append_nil]
  refine lookup_eq_of_perm ?_ ((List.reverse_perm _).trans (hperm'.trans (List.reverse_perm _).symm))
  exact ((List.reverse_perm read').map Prod.fst).nodup_iff.2 hkeys

/-- The members of an object make the same record in the order of a text and in that of their
keys. -/
theorem obj_coherent (hset : ∀ f ∈ r.fields, f.set.Coherent)
    {members : List (List Piece × Doc)} (hms : List.Forall₂ MemberValue members ms)
    (hnodup : (ms.map Prod.fst).Nodup) :
    r.decoder.ofDoc (.obj members .closed) = .ok s ↔ r.decoder.ofJson (.obj ms) = .ok s := by
  have hperm := byKey_perm hnodup
  have hnodup' := (hperm.map Prod.fst).nodup_iff.2 hnodup
  have hread : ∀ changes, r.docMembers [] members = .ok changes ↔ r.jsonMembers [] ms = .ok changes :=
    fun _ => docMembers_iff_jsonMembers hset hms hnodup fun _ _ => rfl
  constructor
  · intro h
    obtain ⟨changes, hchanges, h⟩ := bind_eq_ok_iff.1 h
    obtain ⟨-, h⟩ := bind_unit_eq_ok_iff.1 h
    obtain ⟨changes', hchanges', heq⟩ :=
      exists_jsonMembers_of_perm hperm.symm hnodup ((hread changes).1 hchanges)
    exact bind_eq_ok_iff.2 ⟨changes', hchanges', heq.trans (inShape_eq_ok_iff.1 h)⟩
  · intro h
    obtain ⟨changes', hchanges', h⟩ := bind_eq_ok_iff.1 h
    obtain ⟨changes, hchanges, heq⟩ := exists_jsonMembers_of_perm hperm hnodup' hchanges'
    refine bind_eq_ok_iff.2 ⟨changes, (hread changes).2 hchanges, ?_⟩
    exact bind_unit_eq_ok_iff.2 ⟨rfl, inShape_eq_ok_iff.2 (heq.trans h)⟩

theorem readItems_iff {fs : List (Field σ)} (hset : ∀ f ∈ fs, f.set.Coherent) {items : List Doc}
    {vs : List Json} (hvs : List.Forall₂ Doc.HasValue items vs) :
    readItems Field.ofDoc fs items = .ok changes ↔ readItems Field.ofJson fs vs = .ok changes := by
  induction hvs generalizing fs changes with
  | nil =>
      rw [readItems_nil, readItems_nil]
      exact ok_eq_ok_iff
  | cons hv _ ih =>
      cases fs with
      | nil => exact ok_eq_ok_iff
      | cons f fs =>
          obtain ⟨hf, hfs⟩ := List.forall_mem_cons.1 hset
          rw [readItems_cons, readItems_cons]
          simp only [ih hfs, Field.ofDoc, Field.ofJson, hf _ _ hv]

theorem arr_coherent (hset : ∀ f ∈ r.fields, f.set.Coherent) {items : List Doc} {vs : List Json}
    (hvs : List.Forall₂ Doc.HasValue items vs) :
    r.decoder.ofDoc (.arr items .closed) = .ok s ↔ r.decoder.ofJson (.arr vs) = .ok s := by
  have hlength := hvs.length_eq
  have hread : ∀ changes, readItems Field.ofDoc r.fields items = .ok changes ↔
      readItems Field.ofJson r.fields vs = .ok changes := fun _ => readItems_iff hset hvs
  constructor
  · intro h
    obtain ⟨changes, hchanges, h⟩ := bind_eq_ok_iff.1 h
    by_cases hlong : r.fields.length < items.length
    · rw [if_pos hlong] at h
      cases h
    · rw [if_neg hlong] at h
      obtain ⟨-, h⟩ := bind_unit_eq_ok_iff.1 h
      refine bind_eq_ok_iff.2 ⟨changes, (hread changes).1 hchanges, ?_⟩
      refine bind_eq_ok_iff.2 ⟨s, inShape_eq_ok_iff.1 h, ?_⟩
      rw [if_neg (hlength ▸ hlong)]
      rfl
  · intro h
    obtain ⟨changes, hchanges, h⟩ := bind_eq_ok_iff.1 h
    obtain ⟨t, ht, h⟩ := bind_eq_ok_iff.1 h
    by_cases hlong : r.fields.length < vs.length
    · rw [if_pos hlong] at h
      cases h
    · rw [if_neg hlong] at h
      cases h
      refine bind_eq_ok_iff.2 ⟨changes, (hread changes).2 hchanges, ?_⟩
      rw [if_neg (hlength ▸ hlong)]
      exact bind_unit_eq_ok_iff.2 ⟨rfl, inShape_eq_ok_iff.2 ht⟩

/-- A record is read alike if its fields are. -/
theorem decoder_coherent (r : Record σ) (hset : ∀ f ∈ r.fields, f.set.Coherent) :
    r.decoder.Coherent := by
  intro doc v h s
  cases h.matches_value with
  | arr hvs => exact arr_coherent hset hvs
  | obj hnodup hms => exact obj_coherent hset hms hnodup
  | _ => exact iff_of_false Decoder.rejectDoc_ne_ok Decoder.rejectJson_ne_ok

end Record

/-! ### Choices -/

theorem byKey_eq_singleton_iff {ms : List (String × Json)} (hnodup : (ms.map Prod.fst).Nodup)
    {m : String × Json} : byKey ms = [m] ↔ ms = [m] := by
  rw [← List.perm_singleton, ← List.perm_singleton]
  exact ⟨(byKey_perm hnodup).symm.trans, (byKey_perm hnodup).trans⟩

theorem Decoder.choice_coherent (names : Choice.Names α) : (choice names).Coherent := by
  intro doc v h a
  rw [(choice_reads names).ofDoc_eq_ok_iff, choice_ofJson_eq_ok_iff]
  cases h.matches_value with
  | @str pieces s hs =>
      constructor
      · intro hchoice
        cases hchoice with
        | str hdenotes hlookup =>
            rw [textOf_eq_ok_iff.2 hdenotes] at hs
            cases hs
            exact ⟨_, hlookup, .inl rfl⟩
      · rintro ⟨name, hlookup, h | ⟨members, h, -⟩⟩
        · cases h
          exact .str (textOf_eq_ok_iff.1 hs) hlookup
        · cases h
  | @obj members ms hnodup hms =>
      constructor
      · intro hchoice
        cases hchoice with
        | obj hdenotes hlookup =>
            obtain ⟨⟨key, v⟩, _, ⟨hkey, hv⟩, hrest, rfl⟩ := List.forall₂_cons_left_iff.1 hms
            obtain rfl := List.forall₂_nil_left_iff.1 hrest
            rw [textOf_eq_ok_iff.2 hdenotes] at hkey
            cases hkey
            obtain ⟨htoJson, -⟩ := hv
            cases htoJson
            exact ⟨_, hlookup, .inr ⟨_, rfl, (byKey_eq_singleton_iff hnodup).2 rfl⟩⟩
      · rintro ⟨name, hlookup, h | ⟨_, h, hmembers⟩⟩
        · cases h
        · cases h
          obtain rfl := (byKey_eq_singleton_iff hnodup).1 hmembers
          obtain ⟨⟨k, d⟩, _, ⟨hkey, hv⟩, hrest, rfl⟩ := List.forall₂_cons_right_iff.1 hms
          obtain rfl := List.forall₂_nil_right_iff.1 hrest
          obtain rfl := hv.eq_null
          exact .obj (textOf_eq_ok_iff.1 hkey) hlookup
  | _ => exact iff_of_false nofun (by rintro ⟨_, _, h | ⟨_, h, _⟩⟩ <;> cases h)

/-! ### Texts -/

/-- A coherent decoder reads a text, in which no object repeats a key, as it reads its value. -/
theorem Decoder.Coherent.ofText_eq_ok_iff {d : Decoder α} (hd : d.Coherent) {text : String}
    (h : parse text = .ok v) (hv : v.DistinctKeys) (a : α) :
    d.ofText text = .ok a ↔ d.ofJson v = .ok a := by
  obtain ⟨doc, hparse, hdoc⟩ := exists_doc_of_parse h
  rw [← hd doc v ⟨hdoc, hv⟩ a]
  unfold Decoder.ofText
  rw [hparse]
  show (d.ofDoc doc >>= fun a => pure a) = .ok a ↔ _
  rw [bind_pure]

/-- Both readings give the same result or both fail. -/
theorem Decoder.Coherent.toOption_ofText {d : Decoder α} (hd : d.Coherent) {text : String}
    (h : parse text = .ok v) (hv : v.DistinctKeys) :
    (d.ofText text).toOption = (d.ofJson v).toOption := by
  refine Option.ext fun a => ?_
  rw [toOption_eq_some_iff, toOption_eq_some_iff]
  exact hd.ofText_eq_ok_iff h hv a

end TaskFlow.Json
