import TaskFlow.Proofs.Command.Validation
import TaskFlow.Proofs.Definition.Size
import TaskFlow.Proofs.Json.Reading

/-! # Output as JSON

`Command.Reports` says of each command what value it reports, key by key.  A run of a command that
is asked for JSON and succeeds prints this value as one document with one new line behind it, and the
document is read as this value and no other (`Program.run_json`). -/

namespace TaskFlow

open CommandLine (Item Setting)
open Json (Doc Token)

/-! ### What a command reports -/

/-- The value that a command reports, with these settings and files. -/
inductive Command.Reports (settings : Settings) (read : String → FileContent) : Command → Json → Prop
  /-- The entries of the selectable task types, or of all, in table order. -/
  | list (all : Bool) {rows : List Json}
      (h : List.Forall₂ Descriptor.ToldBy
        ((TaskType.all.filter fun t => all || t.isSelectable).map TaskType.descriptor) rows) :
      Reports settings read (.list all) (.arr rows)
  | describe (t : TaskType) {v : Json} (h : t.descriptor.ToldBy v) :
      Reports settings read (.describe t.name) v
  | check {v : Json} (h : Registry.standard.ToldBy v) : Reports settings read .check v
  | form (t : TaskType) {v : Json} (h : (t.form settings.docsBase).ToldBy v) :
      Reports settings read (.form t.name) v
  | validate {file : String} {r : Report} {v : Json} (h : Verdict file (read file) (.ok r))
      (hv : r.ToldBy v) : Reports settings read (.validate file) v

/-- No file has more bytes than can be counted in 64 bits. -/
def FilesFit (read : String → FileContent) : Prop :=
  ∀ file content, read file = .bytes content → content.size < 2 ^ 64

namespace Command

variable {settings : Settings} {read : String → FileContent} {c : Command} {v : Json}

/-- The value that is reported is that of the answer. -/
theorem reports_iff :
    c.Reports settings read v ↔ ∃ r, c.answer settings read = .ok r ∧ r.json = v := by
  constructor
  · intro h
    cases h with
    | list all h =>
        rw [Descriptor.forall₂_toldBy_iff.1 h]
        cases all <;> exact ⟨_, rfl, rfl⟩
    | describe t h =>
        refine ⟨t.descriptor.sheet, ?_, (Descriptor.toldBy_iff.1 h).symm⟩
        rw [answer, Registry.resolve_eq_ok_iff.2 rfl]
        rfl
    | check h =>
        refine ⟨Registry.standard.summary, ?_, (Registry.toldBy_iff.1 h).symm⟩
        rw [answer, Registry.check_standard]
        rfl
    | form t h =>
        refine ⟨(t.form settings.docsBase).rendering, ?_, (FormLayout.toldBy_iff.1 h).symm⟩
        rw [answer, Registry.resolve_eq_ok_iff.2 rfl]
        rfl
    | validate h hv =>
        obtain ⟨g, hg, rfl⟩ := map_eq_ok_iff.1 (h.loadGraph_eq rfl)
        refine ⟨g.report.rendering, ?_, (Report.toldBy_iff.1 hv).symm⟩
        rw [answer, hg]
        rfl
  · rintro ⟨r, h, rfl⟩
    cases c with
    | list all =>
        cases h
        cases all with
        | true => exact .list true (Descriptor.forall₂_toldBy_iff.2 rfl)
        | false => exact .list false (Descriptor.forall₂_toldBy_iff.2 rfl)
    | describe raw =>
        obtain ⟨t, ht, hr⟩ := bind_eq_ok_iff.1 h
        obtain rfl := Registry.resolve_eq_ok_iff.1 (mapError_eq_ok_iff.1 ht)
        cases hr
        exact .describe t (Descriptor.toldBy_iff.2 rfl)
    | check =>
        obtain ⟨-, h⟩ := bind_unit_eq_ok_iff.1 h
        cases h
        exact .check (Registry.toldBy_iff.2 rfl)
    | form raw =>
        obtain ⟨t, ht, hr⟩ := bind_eq_ok_iff.1 h
        obtain rfl := Registry.resolve_eq_ok_iff.1 (mapError_eq_ok_iff.1 ht)
        cases hr
        exact .form t (FormLayout.toldBy_iff.2 rfl)
    | validate file =>
        obtain ⟨g, hg, h⟩ := bind_eq_ok_iff.1 h
        cases h
        obtain ⟨w, hw⟩ := Verdict.exists_verdict file (read file)
        have hload := hw.loadGraph_eq rfl
        rw [hg] at hload
        subst hload
        exact .validate hw (Report.toldBy_iff.2 rfl)

/-! ### Reported values -/

/-- No object in a reported value gives a key twice, and no number in it is too large to be read,
unless it counts the tasks of a file that does not fit. -/
theorem Reports.sound (h : c.Reports settings read v) : v.Sound (FilesFit read) := by
  cases h with
  | list all h =>
      rw [Descriptor.forall₂_toldBy_iff.1 h]
      refine .arr fun v hv => ?_
      obtain ⟨d, -, rfl⟩ := List.mem_map.1 hv
      exact Descriptor.sound_row
  | describe t h =>
      rw [Descriptor.toldBy_iff.1 h]
      exact Descriptor.sound_row
  | check h =>
      rw [Registry.toldBy_iff.1 h]
      exact Registry.sound_summary (by decide) (by decide)
  | form t h =>
      rw [FormLayout.toldBy_iff.1 h]
      exact FormLayout.sound_toJson
  | @validate file r v h hv =>
      obtain ⟨text, d, hfile, hd, hdescribes⟩ := h.describes
      rw [Report.toldBy_iff.1 hv]
      refine Report.sound_toJson fun hfiles => ?_
      have hsize := hfiles file _ hfile
      have htasks := Definition.length_tasks_le hd
      rw [hdescribes.tasks, Json.Numeral.maxSignificand]
      omega

/-- A reported value is a list or an object. -/
theorem Reports.arr_or_obj (h : c.Reports settings read v) :
    (∃ items, v = .arr items) ∨ ∃ members, v = .obj members := by
  cases h with
  | list all h => exact .inl ⟨_, rfl⟩
  | describe t h => exact .inr ⟨_, Descriptor.toldBy_iff.1 h⟩
  | check h => exact .inr ⟨_, Registry.toldBy_iff.1 h⟩
  | form t h => exact .inr ⟨_, FormLayout.toldBy_iff.1 h⟩
  | validate h hv => exact .inr ⟨_, Report.toldBy_iff.1 hv⟩

/-- A reported value does not end with a new line. -/
theorem Reports.getLast?_pretty (h : c.Reports settings read v) :
    v.pretty.toList.getLast? ≠ some '\n' := by
  rw [Json.pretty, String.toList_ofList]
  rcases h.arr_or_obj with ⟨items, rfl⟩ | ⟨members, rfl⟩
  · rw [Json.getLast?_prettyChars_arr]
    decide
  · rw [Json.getLast?_prettyChars_obj]
    decide

end Command

/-! ### Runs -/

namespace Program

variable {help : HelpText} {args : List String} {env : CommandLine.Environment}
  {read : String → FileContent} {settings : Settings} {c : Command}

/-- A run that ends with exit code 0 prints the answer of its command. -/
theorem run_eq_done (hrequest : request args env = .ok (settings, c))
    (hexit : (run help args env read).exitCode = 0) :
    ∃ r, c.answer settings read = .ok r ∧
      run help args env read = .done (endLine (r.write settings.format)) := by
  unfold run at hexit ⊢
  rw [hrequest] at hexit ⊢
  dsimp only at hexit ⊢
  cases h : c.answer settings read with
  | error f =>
      rw [Command.run, h] at hexit
      cases hexit
  | ok r =>
      refine ⟨r, rfl, ?_⟩
      rw [Command.run, h]
      rfl

/-- A run ends with exit code 0 when its command has something to report. -/
theorem exitCode_of_reports {v : Json} (hrequest : request args env = .ok (settings, c))
    (h : c.Reports settings read v) : (run help args env read).exitCode = 0 := by
  obtain ⟨r, hr, -⟩ := Command.reports_iff.1 h
  simp only [run, hrequest, Command.run, hr, Except.map, Outcome.exitCode]

/-- A run of a command that ends with exit code 0, in the format of JSON, prints the one value that
the command reports, with one new line behind it.  No other value is read from what is printed, and
this one is, provided that no file has 2^64 bytes.

Runs that ask for help or for the version are not among these: they carry out no command and have no
value to report. -/
theorem run_json (help : HelpText) (hrequest : request args env = .ok (settings, c))
    (hformat : settings.format = .json) (hexit : (run help args env read).exitCode = 0) :
    ∃ v : Json, (∀ w, c.Reports settings read w ↔ w = v) ∧ v.DistinctKeys ∧
      (run help args env read).stdout = v.pretty ++ "\n" ∧ v.pretty.toList.getLast? ≠ some '\n' ∧
      (∀ w : Json, Doc.parse (Token.scan (run help args env read).stdout.toList) = (w.toDoc, []) ↔
        w = v) ∧
      (FilesFit read → Json.parse (run help args env read).stdout = .ok v) := by
  obtain ⟨r, hr, hrun⟩ := run_eq_done hrequest hexit
  have hreports : ∀ w, c.Reports settings read w ↔ w = r.json := by
    intro w
    rw [Command.reports_iff, hr]
    simp [eq_comm]
  have hv := (hreports r.json).2 rfl
  have hstdout : (run help args env read).stdout = r.json.pretty ++ "\n" := by
    rw [hrun, hformat]
    exact endLine_of_ne hv.getLast?_pretty
  have hspaces : Token.Spaces ['\n'] := List.forall_mem_singleton.2 rfl
  have hchars : (r.json.pretty ++ "\n").toList = r.json.pretty.toList ++ ['\n'] :=
    String.toList_append
  refine ⟨r.json, hreports, hv.sound.distinct, hstdout, hv.getLast?_pretty, ?_, fun hfiles => ?_⟩
  · intro w
    rw [hstdout, hchars]
    exact Json.parse_pretty_iff hspaces
  · rw [hstdout]
    exact Json.parse_pretty (hv.sound.readable hfiles) hspaces hchars

/-- A workflow whose names need escapes. -/
def awkward : Definition where
  name := "a \"b\" \\ c\n\x00"
  tasks := [⟨"é\t", "SHELL", true⟩]
  relations := [⟨none, "é\t"⟩]

/-- Its file, whatever the name. -/
def awkwardFile (_ : String) : FileContent :=
  .bytes awkward.toJson.pretty.toUTF8

theorem run_json_awkward :
    Json.parse
        (run (fun _ _ => "") ["--format=json", "validate", "etl.json"] {} awkwardFile).stdout =
      .ok (.obj [("workflow", .str "a \"b\" \\ c\n\x00"), ("tasks", .nat 1),
        ("roots", .arr [.str "é\t"]), ("order", .arr [.str "é\t"]), ("streaming", .arr []),
        ("skipped", .arr [.str "é\t"])]) := by
  have hrequest : request ["--format=json", "validate", "etl.json"] {} =
      .ok ({ format := .json }, .validate "etl.json") := by
    have hitems : Item.ofArguments ["--format=json", "validate", "etl.json"] =
        [.setting .format "json", .operand "validate", .operand "etl.json"] := by
      simp [Item.ofArguments, Item.splitLong, Setting.ofName?]
    rw [request, hitems]
    rfl
  have hreport : (Command.validate "etl.json").Reports { format := .json } awkwardFile
      (Report.toJson ⟨awkward.name, 1, ["é\t"], ["é\t"], [], ["é\t"]⟩) :=
    .validate (.valid (Definition.decoder_reads.ofText_pretty awkward.written_toJson) rfl)
      (Report.toldBy_iff.2 rfl)
  have hsize : awkward.toJson.pretty.toUTF8.size < 2 ^ 64 := by
    decide +kernel
  have hfiles : FilesFit awkwardFile := by
    intro file content hcontent
    rw [← FileContent.bytes.inj hcontent]
    exact hsize
  obtain ⟨v, hv, -, -, -, -, hparse⟩ :=
    run_json (fun _ _ => "") hrequest rfl (exitCode_of_reports hrequest hreport)
  obtain rfl := (hv _).1 hreport
  exact hparse hfiles

end Program

end TaskFlow
