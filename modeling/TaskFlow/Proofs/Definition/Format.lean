import TaskFlow.Definition.Format
import TaskFlow.Proofs.Json.Record

/-! # How definitions are written

`Task.Written`, `Relation.Written` and `Definition.Written` relate documents to the tasks, relations
and definitions that are written by them: as an object with its fields in any order or as an array
of its fields in declaration order, fields with a default being optional.  A text is read as a
definition exactly if it spells, apart from spaces, such a document (`Definition.read_text_iff`). -/

namespace TaskFlow

open Json (Doc Supplies Required Defaulted IsString IsBool IsNullable IsList Reads Token Record
  fills_required_iff fills_defaulted_iff)
open Json.Decoder (string_reads bool_reads nullable_reads list_reads)

namespace Task

/-- The document writes the task. -/
inductive Written : Doc → Task → Prop
  | mk {doc : Doc} {t : Task} {name typeName skip : Option Doc} :
      Supplies ["name", "task_type", "skip"] doc [name, typeName, skip] →
      Required IsString name t.name →
      Required IsString typeName t.typeName →
      Defaulted IsBool false skip t.skip →
      Written doc t

theorem decoder_reads : Reads decoder Written where
  ofDoc_eq_ok_iff doc t := by
    rw [decoder, Record.ofDoc_eq_ok_iff record (by decide)]
    constructor
    · rintro ⟨given, hsupplies, hfilled⟩
      match given, hfilled with
      | [name, typeName, skip], ⟨_, h₁, _, h₂, _, h₃, ht⟩ =>
          obtain ⟨a₁, hname, rfl⟩ := (fills_required_iff rfl string_reads rfl).1 h₁
          obtain ⟨a₂, htypeName, rfl⟩ := (fills_required_iff rfl string_reads rfl).1 h₂
          obtain ⟨a₃, hskip, rfl⟩ := (fills_defaulted_iff rfl bool_reads rfl rfl).1 h₃
          cases ht
          exact .mk hsupplies hname htypeName hskip
    · rintro ⟨hsupplies, hname, htypeName, hskip⟩
      refine ⟨_, hsupplies, ?_⟩
      refine ⟨_, (fills_required_iff rfl string_reads rfl).2 ⟨_, hname, rfl⟩, ?_⟩
      refine ⟨_, (fills_required_iff rfl string_reads rfl).2 ⟨_, htypeName, rfl⟩, ?_⟩
      refine ⟨_, (fills_defaulted_iff rfl bool_reads rfl rfl).2 ⟨_, hskip, rfl⟩, ?_⟩
      rfl
  whole := by
    rintro _ _ ⟨hsupplies, hname, htypeName, hskip⟩
    refine hsupplies.whole ?_
    simp only [List.forall_mem_cons]
    exact ⟨hname.whole string_reads.whole,
      htypeName.whole string_reads.whole,
      hskip.whole bool_reads.whole, List.forall_mem_nil _⟩

end Task

namespace Relation

/-- The document writes the relation. -/
inductive Written : Doc → Relation → Prop
  | mk {doc : Doc} {r : Relation} {source target : Option Doc} :
      Supplies ["from", "to"] doc [source, target] →
      Defaulted (IsNullable IsString) none source r.source →
      Required IsString target r.target →
      Written doc r

theorem source_reads : Reads Json.Decoder.string.nullable (IsNullable IsString) :=
  nullable_reads string_reads (by rintro _ ⟨⟩)

theorem decoder_reads : Reads decoder Written where
  ofDoc_eq_ok_iff doc r := by
    rw [decoder, Record.ofDoc_eq_ok_iff record (by decide)]
    constructor
    · rintro ⟨given, hsupplies, hfilled⟩
      match given, hfilled with
      | [source, target], ⟨_, h₁, _, h₂, hr⟩ =>
          obtain ⟨a₁, hsource, rfl⟩ := (fills_defaulted_iff rfl source_reads rfl rfl).1 h₁
          obtain ⟨a₂, htarget, rfl⟩ := (fills_required_iff rfl string_reads rfl).1 h₂
          cases hr
          exact .mk hsupplies hsource htarget
    · rintro ⟨hsupplies, hsource, htarget⟩
      refine ⟨_, hsupplies, ?_⟩
      refine ⟨_, (fills_defaulted_iff rfl source_reads rfl rfl).2 ⟨_, hsource, rfl⟩, ?_⟩
      refine ⟨_, (fills_required_iff rfl string_reads rfl).2 ⟨_, htarget, rfl⟩, ?_⟩
      rfl
  whole := by
    rintro _ _ ⟨hsupplies, hsource, htarget⟩
    refine hsupplies.whole ?_
    simp only [List.forall_mem_cons]
    exact ⟨hsource.whole source_reads.whole, htarget.whole string_reads.whole,
      List.forall_mem_nil _⟩

end Relation

namespace Definition

/-- The document writes the definition. -/
inductive Written : Doc → Definition → Prop
  | mk {doc : Doc} {d : Definition} {name tasks relations : Option Doc} :
      Supplies ["name", "tasks", "relations"] doc [name, tasks, relations] →
      Required IsString name d.name →
      Defaulted (IsList Task.Written) [] tasks d.tasks →
      Defaulted (IsList Relation.Written) [] relations d.relations →
      Written doc d

theorem tasks_reads : Reads Task.decoder.list (IsList Task.Written) :=
  list_reads Task.decoder_reads

theorem relations_reads : Reads Relation.decoder.list (IsList Relation.Written) :=
  list_reads Relation.decoder_reads

theorem decoder_reads : Reads decoder Written where
  ofDoc_eq_ok_iff doc d := by
    rw [decoder, Record.ofDoc_eq_ok_iff record (by decide)]
    constructor
    · rintro ⟨given, hsupplies, hfilled⟩
      match given, hfilled with
      | [name, tasks, relations], ⟨_, h₁, _, h₂, _, h₃, hd⟩ =>
          obtain ⟨a₁, hname, rfl⟩ := (fills_required_iff rfl string_reads rfl).1 h₁
          obtain ⟨a₂, htasks, rfl⟩ := (fills_defaulted_iff rfl tasks_reads rfl rfl).1 h₂
          obtain ⟨a₃, hrelations, rfl⟩ := (fills_defaulted_iff rfl relations_reads rfl rfl).1 h₃
          cases hd
          exact .mk hsupplies hname htasks hrelations
    · rintro ⟨hsupplies, hname, htasks, hrelations⟩
      refine ⟨_, hsupplies, ?_⟩
      refine ⟨_, (fills_required_iff rfl string_reads rfl).2 ⟨_, hname, rfl⟩, ?_⟩
      refine ⟨_, (fills_defaulted_iff rfl tasks_reads rfl rfl).2 ⟨_, htasks, rfl⟩, ?_⟩
      refine ⟨_, (fills_defaulted_iff rfl relations_reads rfl rfl).2 ⟨_, hrelations, rfl⟩, ?_⟩
      rfl
  whole := by
    rintro _ _ ⟨hsupplies, hname, htasks, hrelations⟩
    refine hsupplies.whole ?_
    simp only [List.forall_mem_cons]
    exact ⟨hname.whole string_reads.whole, htasks.whole tasks_reads.whole,
      hrelations.whole relations_reads.whole, List.forall_mem_nil _⟩

/-- **Which texts are read, and as what.** -/
theorem read_text_iff (text : String) (d : Definition) :
    decoder.ofText text = .ok d ↔
      ∃ doc : Doc, Token.Spelled doc.tokens text.toList ∧ Written doc d :=
  decoder_reads.ofText_eq_ok_iff text d

end Definition

end TaskFlow
