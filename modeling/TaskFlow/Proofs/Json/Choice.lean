import TaskFlow.Json.Choice
import TaskFlow.Proofs.Json.Shape

/-! # Choices among names

A choice is written as one of the names, and also as an object whose only key is one of the names
and whose value is null.  `IsChoice` says this of documents, and `choice_reads` that the decoder
accepts these and no others; `choice_ofJson_eq_ok_iff` says it of parsed values. -/

namespace TaskFlow.Json

variable {α : Type} {names : Choice.Names α} {v : Json} {a : α}

/-- One of the names, as a string or as the only key of an object, over null. -/
inductive IsChoice (names : Choice.Names α) : Doc → α → Prop
  | str {pieces : List Piece} {name : String} {a : α} :
      Piece.Denotes pieces name.toList → names.lookup name = some a → IsChoice names (.str pieces) a
  | obj {key : List Piece} {name : String} {a : α} :
      Piece.Denotes key name.toList → names.lookup name = some a →
      IsChoice names (.obj [(key, .null)] .closed) a

namespace Choice

theorem find_eq_ok_iff {name : String} : find names name = .ok a ↔ names.lookup name = some a := by
  rw [find]
  cases names.lookup name with
  | none => simp
  | some b => simp

theorem endOf_eq_ok_iff {more : List (List Piece × Doc)} {ending : Ending} :
    endOf more ending = .ok () ↔ more = [] ∧ ending = .closed := by
  cases ending with
  | closed => cases more <;> simp [endOf]
  | stopped comma b =>
      refine iff_of_false (fun h => ?_) (by simp)
      rw [endOf] at h
      split at h <;> cases h

theorem ofDoc_unit_eq_ok_iff {d : Doc} : Decoder.unit.ofDoc d = .ok () ↔ d = .null := by
  cases d with
  | null => exact iff_of_true rfl rfl
  | _ => exact iff_of_false Decoder.rejectDoc_ne_ok nofun

theorem ofJson_unit_eq_ok_iff : Decoder.unit.ofJson v = .ok () ↔ v = .null := by
  cases v with
  | null => exact iff_of_true rfl rfl
  | _ => exact iff_of_false nofun nofun

end Choice

namespace Decoder

theorem choice_reads (names : Choice.Names α) : Reads (choice names) (IsChoice names) where
  ofDoc_eq_ok_iff doc a := by
    constructor
    · intro h
      change Choice.ofDoc names doc = .ok a at h
      unfold Choice.ofDoc at h
      split at h
      · obtain ⟨name, hname, h⟩ := bind_eq_ok_iff.1 h
        have hdenotes := textOf_eq_ok_iff.1 (inText_eq_ok_iff.1 hname)
        exact .str hdenotes (Choice.find_eq_ok_iff.1 (inShape_eq_ok_iff.1 h))
      · obtain ⟨name, hname, h⟩ := bind_eq_ok_iff.1 h
        obtain ⟨b, hb, h⟩ := bind_eq_ok_iff.1 h
        obtain ⟨hnull, h⟩ := bind_unit_eq_ok_iff.1 h
        obtain ⟨hend, h⟩ := bind_unit_eq_ok_iff.1 h
        cases h
        obtain rfl := Choice.ofDoc_unit_eq_ok_iff.1 hnull
        obtain ⟨rfl, rfl⟩ := Choice.endOf_eq_ok_iff.1 (inText_eq_ok_iff.1 hend)
        have hdenotes := textOf_eq_ok_iff.1 (inText_eq_ok_iff.1 hname)
        exact .obj hdenotes (Choice.find_eq_ok_iff.1 (inShape_eq_ok_iff.1 hb))
      all_goals cases h
    · intro h
      cases h with
      | str hdenotes hlookup =>
          refine bind_eq_ok_iff.2 ⟨_, inText_eq_ok_iff.2 (textOf_eq_ok_iff.2 hdenotes), ?_⟩
          exact inShape_eq_ok_iff.2 (Choice.find_eq_ok_iff.2 hlookup)
      | obj hdenotes hlookup =>
          refine bind_eq_ok_iff.2 ⟨_, inText_eq_ok_iff.2 (textOf_eq_ok_iff.2 hdenotes), ?_⟩
          exact bind_eq_ok_iff.2 ⟨a, inShape_eq_ok_iff.2 (Choice.find_eq_ok_iff.2 hlookup), rfl⟩
  whole := by
    intro doc a h
    cases h with
    | str => exact .str _
    | obj => exact .obj (by simpa using Doc.Whole.null)

theorem choice_ofJson_eq_ok_iff :
    (choice names).ofJson v = .ok a ↔
      ∃ name, names.lookup name = some a ∧
        (v = .str name ∨ ∃ members, v = .obj members ∧ byKey members = [(name, .null)]) := by
  constructor
  · intro h
    change Choice.ofJson names v = .ok a at h
    unfold Choice.ofJson at h
    split at h
    · exact ⟨_, Choice.find_eq_ok_iff.1 h, .inl rfl⟩
    · split at h
      · rename_i hmembers
        obtain ⟨b, hb, h⟩ := bind_eq_ok_iff.1 h
        obtain ⟨hnull, h⟩ := bind_unit_eq_ok_iff.1 h
        cases h
        obtain rfl := Choice.ofJson_unit_eq_ok_iff.1 hnull
        exact ⟨_, Choice.find_eq_ok_iff.1 hb, .inr ⟨_, rfl, hmembers⟩⟩
      · cases h
    · cases h
  · rintro ⟨name, hlookup, rfl | ⟨members, rfl, hmembers⟩⟩
    · exact Choice.find_eq_ok_iff.2 hlookup
    · change Choice.ofJson names (.obj members) = .ok a
      rw [Choice.ofJson, hmembers]
      exact bind_eq_ok_iff.2 ⟨a, Choice.find_eq_ok_iff.2 hlookup, rfl⟩

end Decoder

end TaskFlow.Json
