import Mathlib.Data.Bool.Basic
import TaskFlow.Program
import TaskFlow.Result

/-! # Options and their variables

Each level of a command line collects the options that are given at it, each at most once, so an
invocation has an option as often as the command line gives it (`Invocation.count_ofItems`).  An
option that is given at either level outranks its environment variable, except that a level without
a format still reads the variable and refuses one that names no format, and that a help text may
show the variables (`run_of_given`). -/

namespace TaskFlow

namespace CommandLine

variable {o o' : Options} {s : Setting} {value : String} {i : Invocation} {env env' : Environment}
  {f : OutputFormat}

/-! ### How often an option is given -/

/-- The item gives the option. -/
def Item.gives (s : Setting) : Item → Bool
  | setting s' _ => s' = s
  | _ => false

/-- How often a level gives the option. -/
def Options.count (o : Options) : Setting → Nat
  | .docsBase => o.docsBase.isSome.toNat
  | .format => o.format.isSome.toNat
  | .logFilter => o.logFilter.isSome.toNat

theorem Options.count_le_one (o : Options) (s : Setting) : o.count s ≤ 1 := by
  cases s <;> exact Bool.toNat_le _

theorem Options.count_empty (s : Setting) : ({} : Options).count s = 0 := by
  cases s <;> rfl

theorem Options.count_set (h : o.set s value = .ok o') (s' : Setting) :
    o'.count s' = o.count s' + if s = s' then 1 else 0 := by
  cases s with
  | docsBase =>
      simp only [Options.set] at h
      split at h
      · cases h
      · cases h
        cases s' <;> simp_all [count]
  | format =>
      simp only [Options.set] at h
      split at h
      · cases h
        cases s' <;> simp_all [count]
      · cases h
  | logFilter =>
      simp only [Options.set] at h
      split at h
      · cases h
      · cases h
        cases s' <;> simp_all [count]

theorem Tail.count_add {name : CommandName} {t t' : Tail} {item : Item}
    (h : t.add name item = .ok t') (s : Setting) :
    t'.options.count s = t.options.count s + if item.gives s then 1 else 0 := by
  cases item with
  | setting s' value =>
      obtain ⟨o, ho, rfl⟩ := map_eq_ok_iff.1 h
      simpa [Item.gives] using Options.count_set ho s
  | flag f =>
      cases f with
      | all =>
          simp only [Tail.add] at h
          split at h <;> cases h
          rfl
      | help => cases h
      | version => cases h
  | operand text =>
      simp only [Tail.add] at h
      split at h <;> cases h
      rfl
  | rest =>
      cases h
      rfl
  | unknown => cases h

theorem Tail.count_foldlM {name : CommandName} {items : List Item} {t t' : Tail}
    (h : items.foldlM (Tail.add name) t = .ok t') (s : Setting) :
    t'.options.count s = t.options.count s + items.countP (Item.gives s) := by
  induction items generalizing t with
  | nil =>
      cases h
      rfl
  | cons item items ih =>
      rw [List.foldlM_cons] at h
      obtain ⟨t₁, h₁, h⟩ := bind_eq_ok_iff.1 h
      rw [ih h, Tail.count_add h₁ s, List.countP_cons]
      omega

/-- Together the levels of an invocation have an option as often as the command line gives it. -/
theorem Invocation.count_ofItems {items : List Item} {outer : Options}
    (h : ofItems outer items = .ok i) (s : Setting) :
    i.outer.count s + i.inner.count s = outer.count s + items.countP (Item.gives s) := by
  fun_induction ofItems outer items with
  | case2 outer s' value items ih =>
      obtain ⟨o, ho, h⟩ := bind_eq_ok_iff.1 h
      rw [ih o h, Options.count_set ho s, List.countP_cons]
      simp only [Item.gives, decide_eq_true_eq]
      omega
  | case7 outer text items hhelp name hname =>
      obtain ⟨t, ht, h⟩ := bind_eq_ok_iff.1 h
      obtain ⟨c, hc, h⟩ := bind_eq_ok_iff.1 h
      cases h
      rw [Tail.count_foldlM ht s, Options.count_empty, List.countP_cons]
      simp [Item.gives]
  | _ => cases h

theorem Invocation.count_pos_of_mem {items : List Item} (h : ofItems {} items = .ok i)
    (hs : .setting s value ∈ items) : 0 < i.outer.count s + i.inner.count s := by
  rw [count_ofItems h s, Options.count_empty, Nat.zero_add, List.countP_pos_iff]
  exact ⟨_, hs, by simp [Item.gives]⟩

/-! ### Variables -/

/-- The variable that stands in for the option. -/
def Environment.variable (env : Environment) : Setting → Option String
  | .docsBase => env.docsBase
  | .format => env.format
  | .logFilter => env.logFilter

/-- The variable of the format is not set, or names a format. -/
def Environment.FormatReadable (env : Environment) : Prop :=
  ∀ name, env.format = some name → ∃ f, OutputFormat.ofName? name = some f

theorem Environment.exists_format? (h : env.FormatReadable) : ∃ f, env.format? = .ok f := by
  unfold format?
  cases hname : env.format with
  | none => exact ⟨none, rfl⟩
  | some name =>
      obtain ⟨f, hf⟩ := h name hname
      exact ⟨some f, by simp [hf]⟩

/-- A variable that cannot be read is a matter of usage, like all that is wrong with options. -/
theorem Environment.format?_eq_error {stop : Stop} (h : env.format? = .error stop) :
    stop = .usage := by
  unfold format? at h
  cases hname : env.format with
  | none => simp [hname] at h
  | some name =>
      cases hf : OutputFormat.ofName? name with
      | none => simpa [hname, hf, eq_comm] using h
      | some f => simp [hname, hf] at h

theorem Environment.format?_eq_usage (h : ¬ env.FormatReadable) : env.format? = .error .usage := by
  simp only [FormatReadable, not_forall, not_exists] at h
  obtain ⟨name, hname, hf⟩ := h
  have hnone : OutputFormat.ofName? name = none := Option.eq_none_iff_forall_ne_some.2 hf
  simp [format?, hname, hnone]

/-- A level that gives the format does not look at the variable. -/
theorem Options.formatIn_of_some (h : o.format = some f) : o.formatIn env = .ok (some f) := by
  rw [formatIn, h]

theorem Options.formatIn_of_none (h : o.format = none) : o.formatIn env = env.format? := by
  rw [formatIn, h]

theorem Options.count_format_eq_zero : o.count .format = 0 ↔ o.format = none := by
  simp [count]

theorem Options.exists_formatIn (h : o.count .format = 0 → env.FormatReadable) :
    ∃ f, o.formatIn env = .ok f := by
  cases hf : o.format with
  | none =>
      rw [formatIn_of_none hf]
      exact Environment.exists_format? (h (count_format_eq_zero.2 hf))
  | some f => exact ⟨some f, formatIn_of_some hf⟩

/-! ### What an environment does to the settings -/

/-- The base of the documentation is that of the option, or else that of the variable. -/
def Invocation.docsBase (i : Invocation) (env : Environment) : Option String :=
  (i.inner.docsBase.or i.outer.docsBase).or env.docsBase

theorem Invocation.settings_congr (hformat : env.format = env'.format)
    (hbase : i.docsBase env = i.docsBase env') : i.settings env = i.settings env' := by
  have hlevel : ∀ o : Options, o.formatIn env = o.formatIn env' := by
    intro o
    rw [Options.formatIn, Options.formatIn, Environment.format?, Environment.format?, hformat]
  unfold docsBase at hbase
  rw [settings, settings, hlevel, hlevel, hbase]

/-- An option for the base outranks its variable. -/
theorem Invocation.docsBase_of_given (h : 0 < i.outer.count .docsBase + i.inner.count .docsBase) :
    i.docsBase env = i.docsBase env' := by
  unfold docsBase
  cases hi : i.inner.docsBase with
  | some base => rfl
  | none =>
      cases ho : i.outer.docsBase with
      | some base => rfl
      | none => simp [Options.count, hi, ho] at h

theorem Options.formatIn_eq_error {stop : Stop} (h : o.formatIn env = .error stop) :
    stop = .usage := by
  cases hf : o.format with
  | none => exact Environment.format?_eq_error (formatIn_of_none hf ▸ h)
  | some f =>
      rw [formatIn_of_some hf] at h
      cases h

theorem Invocation.settings_eq_error {stop : Stop} (h : i.settings env = .error stop) :
    stop = .usage := by
  rcases bind_eq_error_iff.1 h with h | ⟨inner, -, h⟩
  · exact Options.formatIn_eq_error h
  · rcases bind_eq_error_iff.1 h with h | ⟨outer, -, h⟩
    · exact Options.formatIn_eq_error h
    · cases h

/-- Where every level gives a format or can read one, the option that is given decides. -/
theorem Invocation.settings_of_given (hi : i.inner.count .format = 0 → env.FormatReadable)
    (ho : i.outer.count .format = 0 → env.FormatReadable)
    (h : 0 < i.outer.count .format + i.inner.count .format) :
    i.settings env =
      .ok (.ofOptions (i.docsBase env) ((i.inner.format.or i.outer.format).getD .text)) := by
  obtain ⟨fi, hfi⟩ := Options.exists_formatIn hi
  obtain ⟨fo, hfo⟩ := Options.exists_formatIn ho
  have hgiven : ∃ f, i.inner.format.or i.outer.format = some f := by
    cases hi : i.inner.format with
    | some f => exact ⟨f, rfl⟩
    | none =>
        cases ho : i.outer.format with
        | some f => exact ⟨f, rfl⟩
        | none => simp [Options.count, hi, ho] at h
  obtain ⟨f, hf⟩ := hgiven
  rw [settings, hfi, hfo, hf]
  rfl

/-- A level without a format refuses a variable that names none. -/
theorem Invocation.settings_eq_usage (h : ¬ env.FormatReadable)
    (hlevel : i.outer.count .format + i.inner.count .format < 2) : i.settings env = .error .usage := by
  have hrefused := Environment.format?_eq_usage h
  unfold settings
  cases hi : i.inner.format with
  | none =>
      rw [Options.formatIn_of_none hi, hrefused]
      rfl
  | some f =>
      have ho : i.outer.format = none := by
        rw [← Options.count_format_eq_zero]
        simp only [Options.count, hi, Option.isSome_some, Bool.toNat_true] at hlevel ⊢
        omega
      rw [Options.formatIn_of_some hi, Options.formatIn_of_none ho, hrefused]
      rfl

end CommandLine

open CommandLine

namespace Program

variable {help : HelpText} {s : Setting} {value : String} {args args' : List String}
  {env env' : Environment}

/-! ### Runs in two environments -/

/-- The items of a command line give the format more than once. -/
def GivesFormatTwice (args : List String) : Prop :=
  1 < (Item.ofArguments args).countP (Item.gives .format)

/-- The command line asks for help instead of a command. -/
def AsksHelp (args : List String) : Prop :=
  Invocation.ofItems {} (Item.ofArguments args) = .error .help

/-- Only the command line asks for help, and never the environment. -/
theorem asksHelp_iff : AsksHelp args ↔ request args env = .error .help := by
  unfold AsksHelp request
  constructor
  · intro h
    rw [h]
    rfl
  · intro h
    rcases bind_eq_error_iff.1 h with h | ⟨i, -, h⟩
    · exact h
    · rcases bind_eq_error_iff.1 h with h | ⟨settings, -, h⟩
      · cases Invocation.settings_eq_error h
      · cases h

theorem run_of_asksHelp (h : AsksHelp args) (read : String → FileContent) :
    run help args env read = .done (help args env) := by
  rw [run, asksHelp_iff.1 h]
  rfl

/-- Command lines that ask for the same, and not for help, lead to the same run. -/
theorem run_congr (h : request args env = request args' env') (hhelp : ¬ AsksHelp args')
    (read : String → FileContent) : run help args env read = run help args' env' read := by
  rw [run, run, h]
  cases hrequest : request args' env' with
  | ok => rfl
  | error stop =>
      cases stop with
      | help => exact absurd (asksHelp_iff.2 hrequest) hhelp
      | _ => rfl

/-- Environments that give the invocation the same settings lead to the same request. -/
theorem request_congr
    (h : ∀ i, Invocation.ofItems {} (Item.ofArguments args) = .ok i →
      i.settings env = i.settings env') :
    request args env = request args env' := by
  unfold request
  cases hi : Invocation.ofItems {} (Item.ofArguments args) with
  | error stop => rfl
  | ok i =>
      show (do let settings ← i.settings env; _) = (do let settings ← i.settings env'; _)
      rw [h i hi]

/-- A format that is given once does not help against a variable that names none. -/
theorem run_eq_usage (h : ¬ env.FormatReadable) (honce : ¬ GivesFormatTwice args)
    (hitems : ∃ i, Invocation.ofItems {} (Item.ofArguments args) = .ok i)
    (read : String → FileContent) : run help args env read = .usage := by
  obtain ⟨i, hi⟩ := hitems
  have hcount := Invocation.count_ofItems hi .format
  rw [Options.count_empty, Nat.zero_add] at hcount
  have hstop : request args env = .error .usage := by
    rw [request, hi]
    show (do let settings ← i.settings env; _) = _
    rw [Invocation.settings_eq_usage h (hcount ▸ Nat.lt_succ_of_le (Nat.le_of_not_lt honce))]
    rfl
  rw [run, hstop]
  rfl

/-- An option that is given outranks its variable: two environments that differ in this variable
only lead to the same run.  The format is an exception.  Its variable has to name a format, unless
the format is given twice; otherwise the command line is refused.  Where the command line asks for
help instead, the run ends well with the help text, whatever it shows of the environment. -/
theorem run_of_given (help : HelpText) (hgiven : .setting s value ∈ Item.ofArguments args)
    (hothers : ∀ s', s' ≠ s → env.variable s' = env'.variable s') (read : String → FileContent) :
    (¬ AsksHelp args →
        (s = .format → env.FormatReadable ∧ env'.FormatReadable ∨ GivesFormatTwice args) →
          run help args env read = run help args env' read) ∧
      (s = .format → ¬ env.FormatReadable → ¬ GivesFormatTwice args →
        (∃ i, Invocation.ofItems {} (Item.ofArguments args) = .ok i) →
          run help args env read = .usage) ∧
      (AsksHelp args → run help args env read = .done (help args env)) := by
  refine ⟨fun hhelp hformat => run_congr (request_congr fun i hi => ?_) hhelp read,
    fun _ hname honce hitems => run_eq_usage hname honce hitems read,
    fun hhelp => run_of_asksHelp hhelp read⟩
  have hpos := Invocation.count_pos_of_mem hi hgiven
  cases s with
  | docsBase =>
      exact Invocation.settings_congr (hothers .format nofun) (Invocation.docsBase_of_given hpos)
  | logFilter =>
      have hbase : env.docsBase = env'.docsBase := hothers .docsBase nofun
      refine Invocation.settings_congr (hothers .format nofun) ?_
      rw [Invocation.docsBase, Invocation.docsBase, hbase]
  | format =>
      have hbase : env.docsBase = env'.docsBase := hothers .docsBase nofun
      have hread : ∀ o : Options, o = i.inner ∨ o = i.outer → o.count .format = 0 →
          env.FormatReadable ∧ env'.FormatReadable := by
        intro o ho hzero
        refine (hformat rfl).resolve_right fun htwice => ?_
        have hcount := Invocation.count_ofItems hi .format
        rw [Options.count_empty, Nat.zero_add] at hcount
        have hinner := i.inner.count_le_one .format
        have houter := i.outer.count_le_one .format
        unfold GivesFormatTwice at htwice
        rcases ho with rfl | rfl <;> omega
      rw [Invocation.settings_of_given (fun h => (hread _ (.inl rfl) h).1)
          (fun h => (hread _ (.inr rfl) h).1) hpos,
        Invocation.settings_of_given (fun h => (hread _ (.inl rfl) h).2)
          (fun h => (hread _ (.inr rfl) h).2) hpos, Invocation.docsBase, Invocation.docsBase, hbase]

theorem ofArguments_json_check :
    Item.ofArguments ["--format", "json", "check"] = [.setting .format "json", .operand "check"] := by
  simp [Item.ofArguments, Item.splitLong, Setting.ofName?, Item.isValue]

theorem run_json_check :
    Item.setting .format "json" ∈ Item.ofArguments ["--format", "json", "check"] ∧
      run (fun _ _ => "") ["--format", "json", "check"] {} (fun _ => .missing) =
        run (fun _ _ => "") ["--format", "json", "check"] { format := some "text" }
          (fun _ => .missing) := by
  have hgiven : Item.setting .format "json" ∈ Item.ofArguments ["--format", "json", "check"] := by
    rw [ofArguments_json_check]
    exact List.mem_cons_self
  have hothers : ∀ s, s ≠ .format → ({} : Environment).variable s =
      ({ format := some "text" } : Environment).variable s := by
    intro s hs
    cases s with
    | format => exact absurd rfl hs
    | _ => rfl
  have hname : ({ format := some "text" } : Environment).FormatReadable := by
    intro name hname
    cases hname
    exact ⟨.text, rfl⟩
  have hhelp : ¬ AsksHelp ["--format", "json", "check"] := by
    rw [AsksHelp, ofArguments_json_check]
    exact nofun
  obtain ⟨hsame, -⟩ := run_of_given (fun _ _ => "") hgiven hothers fun _ => .missing
  exact ⟨hgiven, hsame hhelp fun _ => .inl ⟨nofun, hname⟩⟩

/-- A variable that names no format makes the run fail, though the format is given. -/
theorem run_json_check_foreign :
    (run (fun _ _ => "") ["--format", "json", "check"] { format := some "xml" }
        fun _ => .missing).exitCode = 2 ∧
      (run (fun _ _ => "") ["--format", "json", "check"] {} fun _ => .missing).exitCode = 0 := by
  have hrefused : request ["--format", "json", "check"] { format := some "xml" } =
      .error .usage := by
    rw [request, ofArguments_json_check]
    rfl
  have hcheck : request ["--format", "json", "check"] {} =
      .ok ({ format := .json }, .check) := by
    rw [request, ofArguments_json_check]
    rfl
  constructor
  · rw [run, hrefused]
    rfl
  · rw [run, hcheck]
    simp only [Command.run, Command.answer, Registry.check_standard]
    rfl

end Program

end TaskFlow
