import TaskFlow.Proofs.Definition.Format
import TaskFlow.Proofs.Json.Write

/-! # Written definitions are read back

A definition, a task or a relation is written as a JSON object with all its fields.  That object is
one of the documents by which it may be written (`written_toJson`), so the reader gives back what
the writer was given, be the text on one line or on several (`read_of_write`). -/

namespace TaskFlow

open Json (isString_ofString supplies_obj isList_arr)

theorem Task.written_toJson (t : Task) : Task.Written t.toJson.toDoc t := by
  refine .mk (supplies_obj rfl rfl ?_) (.given ?_) (.given ?_) (.given ?_)
  · decide
  · exact isString_ofString t.name
  · exact isString_ofString t.typeName
  · exact .bool t.skip

theorem Relation.written_toJson (r : Relation) : Relation.Written r.toJson.toDoc r := by
  refine .mk (supplies_obj rfl rfl ?_) (.given ?_) (.given ?_)
  · decide
  · cases r.source with
    | none => exact .null
    | some s => exact .some (isString_ofString s)
  · exact isString_ofString r.target

theorem Definition.written_toJson (d : Definition) : Definition.Written d.toJson.toDoc d := by
  refine .mk (supplies_obj rfl rfl ?_) (.given ?_) (.given ?_) (.given ?_)
  · decide
  · exact isString_ofString d.name
  · exact isList_arr fun t _ => t.written_toJson
  · exact isList_arr fun r _ => r.written_toJson

/-- **What is written is read back**: definitions, tasks and relations, on one line and over several
lines, whatever characters their names are made of. -/
theorem Definition.read_of_write (d : Definition) (t : Task) (r : Relation) :
    (decoder.ofText d.toJson.compact = .ok d ∧ decoder.ofText d.toJson.pretty = .ok d) ∧
      (Task.decoder.ofText t.toJson.compact = .ok t ∧
        Task.decoder.ofText t.toJson.pretty = .ok t) ∧
      (Relation.decoder.ofText r.toJson.compact = .ok r ∧
        Relation.decoder.ofText r.toJson.pretty = .ok r) := by
  refine ⟨⟨?_, ?_⟩, ⟨?_, ?_⟩, ?_, ?_⟩
  · exact decoder_reads.ofText_compact d.written_toJson
  · exact decoder_reads.ofText_pretty d.written_toJson
  · exact Task.decoder_reads.ofText_compact t.written_toJson
  · exact Task.decoder_reads.ofText_pretty t.written_toJson
  · exact Relation.decoder_reads.ofText_compact r.written_toJson
  · exact Relation.decoder_reads.ofText_pretty r.written_toJson

end TaskFlow
