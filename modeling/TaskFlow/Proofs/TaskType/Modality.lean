import TaskFlow.Proofs.Json.Choice

/-! # How modalities are read

A modality is read as a choice among its names.  So a string is read exactly if the resolver of
names takes it, but an object with one of the names over null is read as well, and the resolver is
never asked (`modality_read_iff`). -/

namespace TaskFlow

open Json (Decoder Doc IsString IsChoice Piece Token byKey)
open Json.Decoder (choice_reads choice_ofJson_eq_ok_iff)

namespace Modality

variable {raw : String} {m : Modality}

/-- The names that a decoder chooses from. -/
abbrev names : Json.Choice.Names Modality :=
  [(stream.key, stream), (batch.key, batch)]

/-- The names to choose from are those that are resolved. -/
theorem lookup_names_eq_some_iff : names.lookup raw = some m ↔ resolve raw = .ok m := by
  rw [resolve_eq_ok_iff, names, key_eq_name, key_eq_name]
  constructor
  · intro h
    rw [List.lookup_cons, List.lookup_cons] at h
    split at h
    · rename_i hname
      cases h
      exact (eq_of_beq hname).symm
    · split at h
      · rename_i hname
        cases h
        exact (eq_of_beq hname).symm
      · cases h
  · rintro rfl
    cases m <;> rfl

/-- The documents that are read. -/
theorem isChoice_names_iff {doc : Doc} :
    IsChoice names doc m ↔
      (∃ raw, IsString doc raw ∧ resolve raw = .ok m) ∨
        ∃ key, Piece.Denotes key m.name.toList ∧ doc = .obj [(key, .null)] .closed := by
  constructor
  · intro h
    cases h with
    | str hdenotes hlookup =>
        exact .inl ⟨_, .str hdenotes, lookup_names_eq_some_iff.1 hlookup⟩
    | obj hdenotes hlookup =>
        rw [← resolve_eq_ok_iff.1 (lookup_names_eq_some_iff.1 hlookup)] at hdenotes
        exact .inr ⟨_, hdenotes, rfl⟩
  · rintro (⟨raw, hstring, hraw⟩ | ⟨key, hdenotes, rfl⟩)
    · cases hstring with
      | str hdenotes => exact .str hdenotes (lookup_names_eq_some_iff.2 hraw)
    · exact .obj hdenotes (lookup_names_eq_some_iff.2 (resolve_eq_ok_iff.2 rfl))

/-- The values that are read. -/
theorem ofJson_eq_ok_iff {v : Json} :
    Decoder.modality.ofJson v = .ok m ↔
      (∃ raw, v = .str raw ∧ resolve raw = .ok m) ∨
        ∃ members, v = .obj members ∧ byKey members = [(m.name, .null)] := by
  rw [Decoder.modality, choice_ofJson_eq_ok_iff]
  simp only [lookup_names_eq_some_iff]
  constructor
  · rintro ⟨raw, hraw, rfl | ⟨members, rfl, hmembers⟩⟩
    · exact .inl ⟨raw, rfl, hraw⟩
    · rw [← resolve_eq_ok_iff.1 hraw] at hmembers
      exact .inr ⟨members, rfl, hmembers⟩
  · rintro (⟨raw, rfl, hraw⟩ | ⟨members, rfl, hmembers⟩)
    · exact ⟨raw, hraw, .inl rfl⟩
    · exact ⟨m.name, resolve_eq_ok_iff.2 rfl, .inr ⟨members, rfl, hmembers⟩⟩

end Modality

/-- **Which values and texts are read as a modality**: the strings that are resolved, and besides
them the objects whose only key is the name of a modality, over null. -/
theorem modality_read_iff (v : Json) (text : String) (m : Modality) :
    (Decoder.modality.ofJson v = .ok m ↔
      (∃ raw, v = .str raw ∧ Modality.resolve raw = .ok m) ∨
        ∃ members, v = .obj members ∧ byKey members = [(m.name, .null)]) ∧
      (Decoder.modality.ofText text = .ok m ↔
        ∃ doc : Doc, Token.Spelled doc.tokens text.toList ∧
          ((∃ raw, IsString doc raw ∧ Modality.resolve raw = .ok m) ∨
            ∃ key, Piece.Denotes key m.name.toList ∧ doc = .obj [(key, .null)] .closed)) := by
  refine ⟨Modality.ofJson_eq_ok_iff, ?_⟩
  rw [Decoder.modality, (choice_reads _).ofText_eq_ok_iff]
  exact exists_congr fun doc => and_congr_right fun _ => Modality.isChoice_names_iff

/-- Not only strings are read as modalities. -/
theorem modality_read_of_object :
    ¬ ∀ (v : Json) (m : Modality), Decoder.modality.ofJson v = .ok m ↔
      ∃ raw, v = .str raw ∧ Modality.resolve raw = .ok m := by
  intro h
  have hread : Decoder.modality.ofJson (.obj [("STREAM", .null)]) = .ok .stream := by rfl
  obtain ⟨raw, hraw, -⟩ := (h _ _).1 hread
  cases hraw

end TaskFlow
