import Mathlib.Data.List.TakeWhile
import TaskFlow.Proofs.CommandLine.Levels

/-! # Where options stand

An option may stand before or after the name of a command, and between its operands.  A command line
is made of `Part`s, the options and the words for the command, and of what follows two dashes.  In a
placement (`Call.Places`) the words keep their order, and the options are anywhere among them.

What a placement asks for depends on its options and its words, each by themselves
(`Call.request_of_places`), so all placements of the same options have the same exit code and output
(`run_of_places`). -/

namespace TaskFlow

namespace CommandLine

variable {env : Environment}

/-- The option name of a setting, without its dashes. -/
def Setting.name : Setting → String
  | .docsBase => "docs-base-url"
  | .format => "format"
  | .logFilter => "log-filter"

theorem Setting.ofName?_name (s : Setting) : Setting.ofName? s.name = some s := by
  cases s <;> rfl

/-- A part of a command line before any two dashes. -/
inductive Part
  /-- An option with its value behind an equals sign. -/
  | joined (g : Given)
  /-- An option with its value in the next argument. -/
  | apart (g : Given)
  /-- The name of a command, an operand or a flag. -/
  | word (text : String)
deriving DecidableEq, Repr

namespace Part

def arguments : Part → List String
  | joined g => ["--" ++ g.setting.name ++ "=" ++ g.value]
  | apart g => ["--" ++ g.setting.name, g.value]
  | word text => [text]

/-- The option, if the part is one. -/
def given? : Part → Option Given
  | joined g | apart g => some g
  | word _ => none

/-- The word, if the part is one. -/
def word? : Part → Option String
  | word text => some text
  | _ => none

/-- The item of a word that is the flag `--all` or does not look like an option. -/
def wordItem (text : String) : Item :=
  if text = "--all" then .flag .all else .operand text

def item : Part → Item
  | joined g | apart g => .setting g.setting g.value
  | word text => wordItem text

theorem exists_given? {p : Part} (h : p.word? = none) :
    ∃ g, p.given? = some g ∧ p.item = .setting g.setting g.value := by
  cases p with
  | joined g => exact ⟨g, rfl, rfl⟩
  | apart g => exact ⟨g, rfl, rfl⟩
  | word text => cases h

theorem given?_wordItem (text : String) :
    (wordItem text).given? = none ∧ wordItem text ≠ .flag .help := by
  rw [wordItem]
  split
  · exact ⟨rfl, nofun⟩
  · exact ⟨rfl, nofun⟩

theorem given?_item (p : Part) : p.item.given? = p.given? := by
  cases p with
  | joined g => rfl
  | apart g => rfl
  | word text => exact (given?_wordItem text).1

theorem item_ne_help (p : Part) : p.item ≠ .flag .help := by
  cases p with
  | joined g => nofun
  | apart g => nofun
  | word text => exact (given?_wordItem text).2

theorem filterMap_given?_map_item (parts : List Part) :
    (parts.map item).filterMap Item.given? = parts.filterMap given? := by
  rw [List.filterMap_map]
  exact List.filterMap_congr fun p _ => given?_item p

theorem filter_given?_map_item (parts : List Part) :
    ((parts.map item).filter fun i => i.given? = none) = (parts.filterMap word?).map wordItem := by
  induction parts with
  | nil => rfl
  | cons p parts ih =>
      rw [List.map_cons]
      cases hp : p.word? with
      | none =>
          obtain ⟨g, hg, -⟩ := exists_given? hp
          rw [List.filterMap_cons_none hp, ← ih,
            List.filter_cons_of_neg (by simp [given?_item, hg])]
      | some text =>
          cases p with
          | word text' =>
              cases hp
              rw [List.filter_cons_of_pos (by simp [item, given?_wordItem]), ih]
              rfl
          | _ => cases hp

/-- A value in an argument of its own, or a word other than the flag `--all`, must not look like an
option. -/
def Separable : Part → Prop
  | joined _ => True
  | apart g => Item.isValue g.value = true
  | word text => text = "--all" ∨ Item.isValue text = true

theorem ne_equals_of_mem_name (s : Setting) : ∀ c ∈ s.name.toList, (c != '=') = true := by
  cases s <;> simp [Setting.name]

theorem splitLong_joined (s : Setting) (value : String) :
    Item.splitLong (s.name.toList ++ '=' :: value.toList) = (s.name, some value) := by
  have hname := ne_equals_of_mem_name s
  rw [Item.splitLong, List.dropWhile_append_of_pos hname, List.takeWhile_append_of_pos hname]
  simp

theorem splitLong_apart (s : Setting) : Item.splitLong s.name.toList = (s.name, none) := by
  have hname := ne_equals_of_mem_name s
  rw [Item.splitLong, List.dropWhile_eq_nil_iff.2 hname]
  simp

theorem name_ne_nil (s : Setting) : s.name.toList ≠ [] := by
  cases s <;> decide

/-- An argument of two dashes and more is an option. -/
theorem ofArguments_long {arg : String} {cs : List Char} (harg : arg.toList = '-' :: '-' :: cs)
    (hcs : cs ≠ []) (args : List String) :
    Item.ofArguments (arg :: args) =
      match Setting.ofName? (Item.splitLong cs).1, (Item.splitLong cs).2 with
      | some s, some value => .setting s value :: Item.ofArguments args
      | some s, none =>
        match args with
        | value :: args =>
          if Item.isValue value then .setting s value :: Item.ofArguments args
          else .unknown :: Item.ofArguments (value :: args)
        | [] => [.unknown]
      | none, value => Item.ofFlagName (Item.splitLong cs).1 value :: Item.ofArguments args := by
  obtain ⟨c, cs, rfl⟩ := List.exists_cons_of_ne_nil hcs
  rw [Item.ofArguments, harg]
  rfl

theorem ofArguments_word {text : String} (h : Item.isValue text = true) (args : List String) :
    Item.ofArguments (text :: args) = .operand text :: Item.ofArguments args := by
  rw [Item.ofArguments]
  unfold Item.isValue at h
  split
  · rename_i htext
    simp [htext] at h
  · rename_i htext
    simp [htext] at h
  · rename_i htext
    simp [htext] at h
  · rfl

theorem ofArguments_part {p : Part} (h : p.Separable) (args : List String) :
    Item.ofArguments (p.arguments ++ args) = p.item :: Item.ofArguments args := by
  cases p with
  | joined g =>
      have harg : ("--" ++ g.setting.name ++ "=" ++ g.value).toList =
          '-' :: '-' :: (g.setting.name.toList ++ '=' :: g.value.toList) := by
        simp
      rw [arguments, List.singleton_append, ofArguments_long harg (by simp), splitLong_joined]
      simp [Setting.ofName?_name, item]
  | apart g =>
      have harg : ("--" ++ g.setting.name).toList = '-' :: '-' :: g.setting.name.toList := by
        simp
      have hvalue : Item.isValue g.value = true := h
      rw [arguments, List.cons_append, ofArguments_long harg (name_ne_nil _), splitLong_apart]
      simp [Setting.ofName?_name, item, hvalue]
  | word text =>
      rcases h with rfl | h
      · have hall : "--all".toList = '-' :: '-' :: ['a', 'l', 'l'] := by rfl
        rw [arguments, List.singleton_append, ofArguments_long hall (by simp)]
        rfl
      · have hne : text ≠ "--all" := by
          rintro rfl
          simp [Item.isValue] at h
        rw [arguments, List.singleton_append, ofArguments_word h, item, wordItem, if_neg hne]

theorem ofArguments_parts {parts : List Part} (h : ∀ p ∈ parts, p.Separable) (args : List String) :
    Item.ofArguments (parts.flatMap arguments ++ args) =
      parts.map item ++ Item.ofArguments args := by
  induction parts with
  | nil => rfl
  | cons p parts ih =>
      obtain ⟨hp, hparts⟩ := List.forall_mem_cons.1 h
      rw [List.flatMap_cons, List.append_assoc, ofArguments_part hp, ih hparts]
      rfl

end Part

/-! ### Calls and their options -/

/-- What a command line asks for, the options apart. -/
structure Call where
  /-- The name of the command. -/
  command : String
  /-- The words for the command up to two dashes, or to the end. -/
  words : List String
  /-- The words behind two dashes, if there are any dashes. -/
  rest : Option (List String)

namespace Call

/-- What stands behind the parts of a command line. -/
def ending (c : Call) : List String :=
  match c.rest with
  | some texts => "--" :: texts
  | none => []

/-- The command line of these parts. -/
def arguments (c : Call) (parts : List Part) : List String :=
  parts.flatMap Part.arguments ++ c.ending

/-- The command exists, and its words are operands and the flag `--all`. -/
structure Proper (c : Call) : Prop where
  command : ∃ name, CommandName.ofName? c.command = some name
  words : ∀ text ∈ c.words, text = "--all" ∨ Item.isValue text = true

/-- The parts are the words of the call in their order, and among them the options, each once. -/
structure Places (c : Call) (given : List Given) (parts : List Part) : Prop where
  words : parts.filterMap Part.word? = c.command :: c.words
  options : (parts.filterMap Part.given?).Perm given
  separable : ∀ g, .apart g ∈ parts → Item.isValue g.value = true

/-- The items of the words for the command. -/
def items (c : Call) : List Item :=
  c.words.map Part.wordItem ++ Item.ofArguments c.ending

/-- What the call asks for with these options, wherever they stand. -/
def answer (c : Call) (name : CommandName) (given : List Given) (env : Environment) :
    Except Stop (Settings × Command) := do
  let o ← given.foldlM Options.take {}
  let t ← c.items.foldlM (Tail.add name) {}
  let command ← name.command t.all t.operand
  let settings ← o.settings env
  return (settings, command)

/-! ### Reading a placement -/

variable {c : Call} {name : CommandName} {given : List Given} {parts : List Part}

theorem ofArguments_ending (c : Call) :
    Item.ofArguments c.ending =
      match c.rest with
      | some texts => .rest :: texts.map .operand
      | none => [] := by
  rw [ending]
  cases c.rest with
  | none => rw [Item.ofArguments]
  | some texts =>
      rw [Item.ofArguments]
      rfl

theorem given?_ofArguments_ending (c : Call) :
    ∀ item ∈ Item.ofArguments c.ending, item.given? = none ∧ item ≠ .flag .help := by
  rw [ofArguments_ending]
  cases c.rest with
  | none => nofun
  | some texts =>
      refine List.forall_mem_cons.2 ⟨⟨rfl, nofun⟩, fun item hitem => ?_⟩
      obtain ⟨text, -, rfl⟩ := List.mem_map.1 hitem
      exact ⟨rfl, nofun⟩

/-- Options before the name of a command are those of the outer level. -/
theorem ofItems_options {before : List Part} (h : ∀ p ∈ before, p.word? = none) (outer : Options)
    (items : List Item) :
    Invocation.ofItems outer (before.map Part.item ++ items) = (do
      let o ← (before.filterMap Part.given?).foldlM Options.take outer
      Invocation.ofItems o items) := by
  induction before generalizing outer with
  | nil => rfl
  | cons p before ih =>
      obtain ⟨hp, hbefore⟩ := List.forall_mem_cons.1 h
      obtain ⟨g, hg, hitem⟩ := Part.exists_given? hp
      have hread : Invocation.ofItems outer ((p :: before).map Part.item ++ items) = (do
          let o ← outer.take g
          Invocation.ofItems o (before.map Part.item ++ items)) := by
        rw [List.map_cons, hitem]
        rfl
      rw [hread, List.filterMap_cons_some hg, List.foldlM_cons]
      cases outer.take g with
      | error e => rfl
      | ok o => exact ih hbefore o

/-- The name of a command opens the inner level. -/
theorem ofItems_command {command : String} (h : CommandName.ofName? command = some name)
    (outer : Options) (items : List Item) :
    Invocation.ofItems outer (.operand command :: items) = (do
      let t ← items.foldlM (Tail.add name) {}
      let c ← name.command t.all t.operand
      return { command := c, outer := outer, inner := t.options }) := by
  have hhelp : command ≠ "help" := by
    rintro rfl
    cases h
  rw [Invocation.ofItems, h]
  exact hhelp

/-- Behind the name of a command, options and words are read independently. -/
theorem foldlM_add_items {after : List Part} (h : after.filterMap Part.word? = c.words) :
    (after.map Part.item ++ Item.ofArguments c.ending).foldlM (Tail.add name) {} = (do
      let o ← (after.filterMap Part.given?).foldlM Options.take {}
      let t ← c.items.foldlM (Tail.add name) {}
      return t.withOptions o) := by
  have hending := given?_ofArguments_ending c
  have hhelp : .flag .help ∉ after.map Part.item ++ Item.ofArguments c.ending := by
    intro hmem
    rcases List.mem_append.1 hmem with hmem | hmem
    · obtain ⟨p, -, hp⟩ := List.mem_map.1 hmem
      exact p.item_ne_help hp
    · exact (hending _ hmem).2 rfl
  have hgiven : (Item.ofArguments c.ending).filterMap Item.given? = [] :=
    List.filterMap_eq_nil_iff.2 fun item hitem => (hending item hitem).1
  have hwords : ((Item.ofArguments c.ending).filter fun i => i.given? = none) =
      Item.ofArguments c.ending :=
    List.filter_eq_self.2 fun item hitem => by simpa using (hending item hitem).1
  rw [Tail.foldlM_add hhelp, List.filterMap_append, List.filter_append, hgiven, hwords,
    List.append_nil, Part.filterMap_given?_map_item, Part.filter_given?_map_item, h]
  rfl

theorem isValue_of_ofName? {text : String} (h : CommandName.ofName? text = some name) :
    Item.isValue text = true := by
  unfold CommandName.ofName? at h
  split at h
  any_goals rfl
  cases h

theorem wordItem_of_ofName? {text : String} (h : CommandName.ofName? text = some name) :
    Part.wordItem text = .operand text := by
  rw [Part.wordItem, if_neg]
  rintro rfl
  cases h

theorem Places.separable_of_mem (h : c.Places given parts) (hc : c.Proper) :
    ∀ p ∈ parts, p.Separable := by
  intro p hp
  cases p with
  | joined g => trivial
  | apart g => exact h.separable g hp
  | word text =>
      have hmem : text ∈ parts.filterMap Part.word? := List.mem_filterMap.2 ⟨_, hp, rfl⟩
      rw [h.words] at hmem
      rcases List.mem_cons.1 hmem with rfl | hmem
      · obtain ⟨name, hname⟩ := hc.command
        exact .inr (isValue_of_ofName? hname)
      · exact hc.words text hmem

/-- A placement has a part before the name of the command and a part behind it. -/
theorem Places.exists_split (h : c.Places given parts) :
    ∃ before after, parts = before ++ .word c.command :: after ∧
      (∀ p ∈ before, p.word? = none) ∧ after.filterMap Part.word? = c.words ∧
        (before.filterMap Part.given? ++ after.filterMap Part.given?).Perm given := by
  obtain ⟨before, p, after, rfl, hbefore, hp, hafter⟩ := List.filterMap_eq_cons_iff.1 h.words
  obtain rfl : p = .word c.command := by
    cases p with
    | word text => rw [Option.some.inj hp]
    | _ => cases hp
  refine ⟨before, after, rfl, hbefore, hafter, ?_⟩
  have hperm := h.options
  rwa [List.filterMap_append, List.filterMap_cons_none rfl] at hperm

/-- What is asked for, level by level. -/
theorem request_of_split (hname : CommandName.ofName? c.command = some name)
    {before after : List Part}
    (hseparable : ∀ p ∈ before ++ .word c.command :: after, p.Separable)
    (hbefore : ∀ p ∈ before, p.word? = none) (hafter : after.filterMap Part.word? = c.words)
    (env : Environment) :
    Program.request (c.arguments (before ++ .word c.command :: after)) env = (do
      let a ← (before.filterMap Part.given?).foldlM Options.take {}
      let b ← (after.filterMap Part.given?).foldlM Options.take {}
      let t ← c.items.foldlM (Tail.add name) {}
      let command ← name.command t.all t.operand
      let settings ← Invocation.settings { command := command, outer := a, inner := b } env
      return (settings, command)) := by
  have hitems : Item.ofArguments (c.arguments (before ++ .word c.command :: after)) =
      before.map Part.item ++
        (.operand c.command :: (after.map Part.item ++ Item.ofArguments c.ending)) := by
    rw [arguments, Part.ofArguments_parts hseparable, List.map_append, List.map_cons, Part.item,
      wordItem_of_ofName? hname, List.append_assoc, List.cons_append]
  rw [Program.request, hitems, ofItems_options hbefore]
  simp only [ofItems_command hname, foldlM_add_items hafter, bind_assoc, pure_bind]
  rfl

/-- All placements of the options ask for the same. -/
theorem request_of_places (hc : c.Proper) (hname : CommandName.ofName? c.command = some name)
    (hnd : (given.map Given.setting).Nodup) (h : c.Places given parts) (env : Environment) :
    Program.request (c.arguments parts) env = c.answer name given env := by
  have hseparable := h.separable_of_mem hc
  obtain ⟨before, after, rfl, hbefore, hafter, hgiven⟩ := h.exists_split
  have hnd' := (hgiven.map Given.setting).nodup_iff.2 hnd
  rw [request_of_split hname hseparable hbefore hafter, answer,
    ← Options.foldlM_take_perm hgiven]
  cases ha : (before.filterMap Part.given?).foldlM Options.take {} with
  | error e =>
      rw [List.foldlM_append, ha]
      rfl
  | ok a =>
      rw [Options.foldlM_take_append hnd' ha]
      cases hb : (after.filterMap Part.given?).foldlM Options.take {} with
      | error e => rfl
      | ok b =>
          have hsettings : ∀ command, Invocation.settings ⟨command, a, b⟩ env =
              (b.or a).settings env :=
            fun _ => Invocation.settings_eq (Options.count_add_count_le_one hnd' ha hb .format)
          show (c.items.foldlM (Tail.add name) {} >>= _) = (c.items.foldlM (Tail.add name) {} >>= _)
          simp only [hsettings]

/-! ### Why a placement is not carried out -/

theorem command_eq_error {all : Bool} {operand : Option String} {stop : Stop}
    (h : name.command all operand = .error stop) : stop = .usage := by
  cases name with
  | list => cases h
  | check => cases h
  | _ =>
      cases operand with
      | none =>
          cases h
          rfl
      | some text => cases h

theorem ne_help_of_mem_items {item : Item} (h : item ∈ c.items) : item ≠ .flag .help := by
  rcases List.mem_append.1 h with h | h
  · obtain ⟨text, -, rfl⟩ := List.mem_map.1 h
    exact (Part.given?_wordItem text).2
  · exact (given?_ofArguments_ending c item h).2

/-- A call makes no sense, or is carried out. -/
theorem answer_eq_error {stop : Stop} (h : c.answer name given env = .error stop) :
    stop = .usage := by
  rcases bind_eq_error_iff.1 h with ho | ⟨o, -, h⟩
  · exact Options.foldlM_take_eq_error ho
  rcases bind_eq_error_iff.1 h with ht | ⟨t, -, h⟩
  · obtain ⟨before, item, after, t, hitems, -, ht⟩ := foldlM_eq_error_iff.1 ht
    refine Tail.add_eq_error ht (ne_help_of_mem_items (c := c) ?_)
    rw [hitems]
    simp
  rcases bind_eq_error_iff.1 h with hcommand | ⟨command, -, h⟩
  · exact command_eq_error hcommand
  rcases bind_eq_error_iff.1 h with hsettings | ⟨settings, -, h⟩
  · exact Options.settings_eq_error hsettings
  · cases h

end Call

end CommandLine

namespace Program

open CommandLine

variable {c : Call} {given : List Given} {parts parts' : List Part}

/-- A command that exists is not a request for help. -/
theorem not_asksHelp_of_places (hc : c.Proper) (hnd : (given.map Given.setting).Nodup)
    (h : c.Places given parts) : ¬ AsksHelp (c.arguments parts) := by
  obtain ⟨name, hname⟩ := hc.command
  intro hhelp
  have hstop : request (c.arguments parts) {} = .error .help := asksHelp_iff.1 hhelp
  rw [Call.request_of_places hc hname hnd h] at hstop
  cases Call.answer_eq_error hstop

/-- **Options may stand anywhere.**  A call of a command with options of different names, each given
once, ends with the same exit code and writes the same to the standard output, wherever the options
stand before two dashes, whether their values make sense or not, and whatever the environment is. -/
theorem run_of_places (help : HelpText) (hc : c.Proper) (hnd : (given.map Given.setting).Nodup)
    (h : c.Places given parts) (h' : c.Places given parts') (env : Environment)
    (read : String → FileContent) :
    (run help (c.arguments parts) env read).exitCode =
        (run help (c.arguments parts') env read).exitCode ∧
      (run help (c.arguments parts) env read).stdout =
        (run help (c.arguments parts') env read).stdout := by
  obtain ⟨name, hname⟩ := hc.command
  have hrequest : request (c.arguments parts) env = request (c.arguments parts') env := by
    rw [Call.request_of_places hc hname hnd h, Call.request_of_places hc hname hnd h']
  have hsame : run help (c.arguments parts) env read = run help (c.arguments parts') env read :=
    run_congr hrequest (not_asksHelp_of_places hc hnd h') read
  rw [hsame]
  exact ⟨rfl, rfl⟩

/-- A call for the form of a task type. -/
def formCall : Call where
  command := "form"
  words := ["SQL"]
  rest := none

/-- The call with options before and after the name of the command. -/
def formCallAround : List String :=
  ["--format", "json", "form", "--docs-base-url=https://docs.example", "SQL"]

/-- The call with the same options at its end. -/
def formCallBehind : List String :=
  ["form", "SQL", "--docs-base-url", "https://docs.example", "--format=json"]

/-- An environment with values of its own for these options. -/
def formEnvironment : Environment where
  docsBase := some "https://old.example"
  format := some "text"

theorem run_formCall :
    (run (fun _ _ => "") formCallAround formEnvironment fun _ => .missing).exitCode =
        (run (fun _ _ => "") formCallBehind formEnvironment fun _ => .missing).exitCode ∧
      (run (fun _ _ => "") formCallAround formEnvironment fun _ => .missing).stdout =
        (run (fun _ _ => "") formCallBehind formEnvironment fun _ => .missing).stdout := by
  let format : Given := { setting := .format, value := "json" }
  let base : Given := { setting := .docsBase, value := "https://docs.example" }
  have hc : formCall.Proper := ⟨⟨.form, rfl⟩, by decide⟩
  have hnd : ([format, base].map Given.setting).Nodup := by decide
  have haround : formCall.Places [format, base]
      [.apart format, .word "form", .joined base, .word "SQL"] := by
    refine ⟨rfl, .refl _, fun g hg => ?_⟩
    obtain rfl : g = format := by simpa using hg
    simp [Item.isValue, format]
  have hbehind : formCall.Places [format, base]
      [.word "form", .word "SQL", .apart base, .joined format] := by
    refine ⟨rfl, .swap _ _ _, fun g hg => ?_⟩
    obtain rfl : g = base := by simpa using hg
    simp [Item.isValue, base]
  exact run_of_places (fun _ _ => "") hc hnd haround hbehind formEnvironment fun _ => .missing

end Program

end TaskFlow
