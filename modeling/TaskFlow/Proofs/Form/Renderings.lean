import TaskFlow.Proofs.Command.Output

/-! # The two renderings of a form

The document of a form holds the strings of the form under its keys (`FormLayout.ofJson?_toJson`).
Its fields and its section are spelled there by a scheme of their own, which agrees with the spelling
in texts (`FormField.key_eq_label`, `FormSection.name_eq_of_key`) but for one section.  So the text of
the same form has these strings in its lines (`FormLayout.text_rendering`), except for the section of
a single task type (`Command.form_renderings`). -/

namespace TaskFlow

/-! ### What a document tells -/

/-- What stands under a key of an object, read. -/
def Json.member? {α : Type} (key : String) (d : Json.Decoder α) (v : Json) : Option α :=
  (v.get? key).bind fun w => (d.ofJson w).toOption

namespace Json.Decoder

theorem ofJson_strings {α : Type} (f : α → String) (as : List α) :
    string.list.ofJson (.arr (as.map fun a => .str (f a))) = .ok (as.map f) := by
  refine mapM_eq_ok_iff.2 ?_
  rw [List.forall₂_map_left_iff, List.forall₂_map_right_iff]
  exact List.forall₂_same.2 fun a _ => rfl

theorem ofJson_nullable_string (s : Option String) :
    string.nullable.ofJson (s.elim .null .str) = .ok s := by
  cases s <;> rfl

end Json.Decoder

/-- A form as its document tells it, in strings. -/
structure WrittenForm where
  taskType : String
  label : String
  fields : List String
  formSection : String
  helpLink : Option String
deriving DecidableEq, Repr

namespace WrittenForm

variable {w : WrittenForm} {s : String}

/-- The form that a document tells. -/
def ofJson? (v : Json) : Option WrittenForm := do
  let taskType ← v.member? "task_type" .string
  let label ← v.member? "alias" .string
  let fields ← v.member? "fields" (.list .string)
  let formSection ← v.member? "section" .string
  let helpLink ← v.member? "helper_link" (.nullable .string)
  return { taskType, label, fields, formSection, helpLink }

/-- The lines of the form, with its strings as they are. -/
def lines (w : WrittenForm) : List String :=
  (w.label ++ " (" ++ w.taskType ++ ")") :: w.fields.map (fun x => "  - " ++ x) ++
    ("  section: " ++ w.formSection) :: w.helpLink.toList.map (fun link => "  help: " ++ link)

/-- The lines, each with a new line after it. -/
def text (w : WrittenForm) : String :=
  String.join (w.lines.map (· ++ "\n"))

/-- The form with the section that documents spell in their own way spelled as in texts. -/
def respelled (w : WrittenForm) : WrittenForm :=
  { w with formSection := if w.formSection = "data_x" then "datax" else w.formSection }

theorem join_line (before : List String) (line : String) (after : List String) :
    String.join ((before ++ line :: after).map (· ++ "\n")) =
      String.join (before.map (· ++ "\n")) ++
        (line ++ "\n" ++ String.join (after.map (· ++ "\n"))) := by
  rw [List.map_append, List.map_cons, String.join_append, String.join_cons]

/-- The text tells the section, if the rest of the form is known. -/
theorem text_inj : { w with formSection := s }.text = w.text ↔ s = w.formSection := by
  rw [text, text, lines, lines, join_line, join_line]
  simp only [String.append_left_inj, String.append_right_inj]

theorem text_respelled_iff : w.respelled.text = w.text ↔ w.formSection ≠ "data_x" := by
  rw [respelled, text_inj]
  split
  · rename_i h
    rw [h]
    decide
  · rename_i h
    exact iff_of_true rfl h

end WrittenForm

/-! ### The form in both renderings -/

/-- The spelling of a section in texts is told by that in documents. -/
theorem FormSection.name_eq_of_key (s : FormSection) :
    s.name = if s.key = "data_x" then "datax" else s.key := by
  rw [key_eq_name]
  cases s <;> decide

theorem TaskType.key_formSection_iff {t : TaskType} :
    t.formSection.key = "data_x" ↔ t.name = "DATAX" := by
  rw [FormSection.key_eq_name]
  cases t <;> decide

namespace FormLayout

/-- The strings of a form in its document. -/
def written (f : FormLayout) : WrittenForm where
  taskType := f.taskType.name
  label := f.label
  fields := f.fields.map FormField.key
  formSection := f.formSection.key
  helpLink := f.helpLink

theorem ofJson?_toJson (f : FormLayout) : WrittenForm.ofJson? f.toJson = some f.written := by
  have htype : f.toJson.member? "task_type" .string = some f.taskType.name := rfl
  have hlabel : f.toJson.member? "alias" .string = some f.label := rfl
  have hfields : f.toJson.member? "fields" (.list .string) = some (f.fields.map FormField.key) :=
    toOption_eq_some_iff.2 (Json.Decoder.ofJson_strings FormField.key f.fields)
  have hsection : f.toJson.member? "section" .string = some f.formSection.key := rfl
  have hlink : f.toJson.member? "helper_link" (.nullable .string) = some f.helpLink :=
    toOption_eq_some_iff.2 (Json.Decoder.ofJson_nullable_string f.helpLink)
  rw [WrittenForm.ofJson?, htype, hlabel, hfields, hsection, hlink]
  rfl

theorem parse_pretty_toJson (f : FormLayout) : Json.parse f.toJson.pretty = .ok f.toJson :=
  Json.parse_pretty (sound_toJson.readable trivial) Json.Token.spaces_nil (List.append_nil _).symm

theorem text_rendering (f : FormLayout) : f.rendering.text = f.written.respelled.text := by
  rw [WrittenForm.respelled, written, ← FormSection.name_eq_of_key]
  simp only [Rendering.text, rendering, WrittenForm.text, WrittenForm.lines, List.map_map,
    Function.comp_def, FormField.key_eq_label]

end FormLayout

namespace Command

variable {settings : Settings} {read : String → FileContent} {raw : String} {output : String}

theorem run_form (settings : Settings) (read : String → FileContent) (t : TaskType) :
    (Command.form t.name).run settings read =
      .ok ((t.form settings.docsBase).rendering.write settings.format) := by
  rw [run, answer, Registry.resolve_eq_ok_iff.2 rfl]
  rfl

/-- **What the two renderings of a form have in common.**  If there is a form for a name, it can be had
as a text and as a document, and the document is read as strings under its keys.  The text has these
strings in its lines, except that the section `data_x` is spelled `datax` in it; this makes a
difference for the name `DATAX` and for no other. -/
theorem form_renderings (h : (Command.form raw).run settings read = .ok output) :
    ∃ text document v w,
      (Command.form raw).run { settings with format := .text } read = .ok text ∧
      (Command.form raw).run { settings with format := .json } read = .ok document ∧
      Json.parse document = .ok v ∧ WrittenForm.ofJson? v = some w ∧
      text = w.respelled.text ∧ (text = w.text ↔ raw ≠ "DATAX") := by
  obtain ⟨r, hr, -⟩ := map_eq_ok_iff.1 h
  obtain ⟨t, ht, -⟩ := bind_eq_ok_iff.1 hr
  obtain rfl := Registry.resolve_eq_ok_iff.1 (mapError_eq_ok_iff.1 ht)
  let f := t.form settings.docsBase
  refine ⟨f.rendering.text, f.toJson.pretty, f.toJson, f.written, run_form _ read t,
    run_form _ read t, f.parse_pretty_toJson, f.ofJson?_toJson, f.text_rendering, ?_⟩
  rw [f.text_rendering, WrittenForm.text_respelled_iff]
  exact not_congr TaskType.key_formSection_iff

theorem form_renderings_sql :
    ∃ text document v w,
      (Command.form "SQL").run {} (fun _ => .missing) = .ok text ∧
      (Command.form "SQL").run { format := .json } (fun _ => .missing) = .ok document ∧
      Json.parse document = .ok v ∧ WrittenForm.ofJson? v = some w ∧ text = w.text := by
  obtain ⟨text, document, v, w, htext, hdocument, hv, hw, -, hsame⟩ :=
    form_renderings (run_form {} (fun _ => .missing) .sql)
  exact ⟨text, document, v, w, htext, hdocument, hv, hw, hsame.2 (by decide)⟩

/-- One section has two names. -/
theorem form_renderings_dataX :
    ∃ text document v w,
      (Command.form "DATAX").run {} (fun _ => .missing) = .ok text ∧
      (Command.form "DATAX").run { format := .json } (fun _ => .missing) = .ok document ∧
      Json.parse document = .ok v ∧ WrittenForm.ofJson? v = some w ∧
      w.formSection = "data_x" ∧ text ≠ w.text := by
  let f := TaskType.dataX.form defaultDocsBase
  have hsection : f.written.formSection = "data_x" := by
    rw [FormLayout.written, FormSection.key_eq_name]
    rfl
  refine ⟨f.rendering.text, f.toJson.pretty, f.toJson, f.written, run_form _ _ .dataX,
    run_form _ _ .dataX, f.parse_pretty_toJson, f.ofJson?_toJson, hsection, ?_⟩
  rw [f.text_rendering]
  exact fun h => WrittenForm.text_respelled_iff.1 h hsection

end Command

end TaskFlow
