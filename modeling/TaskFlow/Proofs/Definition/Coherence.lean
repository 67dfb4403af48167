import Mathlib.Data.List.Permutation
import TaskFlow.Definition.Format
import TaskFlow.Json.Write
import TaskFlow.Proofs.Json.Coherence

/-! # Definitions are read from texts and from values alike

Definitions, tasks, relations, task types and modalities are read by coherent decoders.  So it makes
no difference to the result whether a text is decoded at once or is first parsed and then decoded
with the members of its objects in the order of their keys (`readings_agree`). -/

namespace TaskFlow

open Json (Decoder Record DistinctKeys)
open Json.Decoder (string_coherent bool_coherent nullable_coherent list_coherent map_coherent
  taskType_coherent choice_coherent)

theorem Task.decoder_coherent : decoder.Coherent := by
  refine record.decoder_coherent ?_
  simp only [record, List.forall_mem_cons]
  exact ⟨map_coherent string_coherent _, map_coherent string_coherent _,
    map_coherent bool_coherent _, List.forall_mem_nil _⟩

theorem Relation.decoder_coherent : decoder.Coherent := by
  refine record.decoder_coherent ?_
  simp only [record, List.forall_mem_cons]
  exact ⟨map_coherent (nullable_coherent string_coherent) _, map_coherent string_coherent _,
    List.forall_mem_nil _⟩

theorem Definition.decoder_coherent : decoder.Coherent := by
  refine record.decoder_coherent ?_
  simp only [record, List.forall_mem_cons]
  exact ⟨map_coherent string_coherent _, map_coherent (list_coherent Task.decoder_coherent) _,
    map_coherent (list_coherent Relation.decoder_coherent) _, List.forall_mem_nil _⟩

/-- **A text and its value are read alike.**  If a text is that of one value, in which no object
repeats a key, then decoding the text and decoding the value give the same result or both fail, for
everything that is read. -/
theorem readings_agree {text : String} {v : Json} (h : Json.parse text = .ok v)
    (hv : v.DistinctKeys) :
    (Definition.decoder.ofText text).toOption = (Definition.decoder.ofJson v).toOption ∧
      (Task.decoder.ofText text).toOption = (Task.decoder.ofJson v).toOption ∧
      (Relation.decoder.ofText text).toOption = (Relation.decoder.ofJson v).toOption ∧
      (Decoder.taskType.ofText text).toOption = (Decoder.taskType.ofJson v).toOption ∧
      (Decoder.taskType.list.ofText text).toOption = (Decoder.taskType.list.ofJson v).toOption ∧
      (Decoder.modality.ofText text).toOption = (Decoder.modality.ofJson v).toOption := by
  refine ⟨?_, ?_, ?_, ?_, ?_, ?_⟩
  · exact Definition.decoder_coherent.toOption_ofText h hv
  · exact Task.decoder_coherent.toOption_ofText h hv
  · exact Relation.decoder_coherent.toOption_ofText h hv
  · exact taskType_coherent.toOption_ofText h hv
  · exact (list_coherent taskType_coherent).toOption_ofText h hv
  · exact (choice_coherent _).toOption_ofText h hv

/-- A definition with its members out of order, one task as an array and one field that is none. -/
def disorderedJson : Json :=
  .obj [("tasks", .arr [.arr [.str "load", .str "SQL"]]), ("owner", .null),
    ("relations", .arr [.obj [("to", .str "load"), ("from", .null)]]), ("name", .str "etl")]

theorem disorderedJson_distinctKeys : disorderedJson.DistinctKeys := by
  simp [disorderedJson]

theorem readings_agree_disorderedJson :
    Json.parse disorderedJson.compact = .ok disorderedJson ∧ disorderedJson.DistinctKeys ∧
      Definition.decoder.ofText disorderedJson.compact =
        .ok { name := "etl", tasks := [⟨"load", "SQL", false⟩], relations := [⟨none, "load"⟩] } := by
  have hparse : Json.parse disorderedJson.compact = .ok disorderedJson := by cbv
  have hvalue : Definition.decoder.ofJson disorderedJson =
      .ok { name := "etl", tasks := [⟨"load", "SQL", false⟩], relations := [⟨none, "load"⟩] } := by
    rfl
  obtain ⟨hagree, -⟩ := readings_agree hparse disorderedJson_distinctKeys
  rw [hvalue] at hagree
  exact ⟨hparse, disorderedJson_distinctKeys, toOption_eq_some_iff.1 hagree⟩

end TaskFlow
