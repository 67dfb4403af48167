import Mathlib.Data.List.Nodup
import TaskFlow.Proofs.CommandLine.Environment

/-! # The options of two levels

Each level of a command line collects the options that are given at it, one after the other.  The
order does not matter (`Options.foldlM_take_perm`).  Where no option is given twice, the options of
both levels together are those that one level would collect of all of them
(`Options.foldlM_take_append`), and the settings depend on these alone (`Invocation.settings_eq`).

After the name of a command, options stand among words.  These are read as if there were no options
between them (`Tail.foldlM_add`). -/

namespace TaskFlow

namespace CommandLine

/-- An option with its value. -/
structure Given where
  setting : Setting
  value : String
deriving DecidableEq, Repr

variable {o o' a b : Options} {given : List Given} {i : Invocation} {env : Environment}
  {name : CommandName} {t t' : Tail} {item : Item}

/-! ### Collecting options -/

namespace Options

/-- Adds an option to those of a level. -/
def take (o : Options) (g : Given) : Except Stop Options :=
  o.set g.setting g.value

/-- The options of an inner level, and behind them those of an outer one. -/
def or (inner outer : Options) : Options where
  docsBase := inner.docsBase.or outer.docsBase
  format := inner.format.or outer.format
  logFilter := inner.logFilter.or outer.logFilter

theorem take_eq_error {g : Given} {e : Stop} (h : o.take g = .error e) : e = .usage := by
  obtain ⟨s, value⟩ := g
  cases s <;> simp only [take, set] at h <;> split at h <;> cases h <;> rfl

theorem foldlM_take_eq_error {e : Stop} (h : given.foldlM take o = .error e) : e = .usage := by
  obtain ⟨_, _, _, _, _, _, hlast⟩ := foldlM_eq_error_iff.1 h
  exact take_eq_error hlast

/-- An option that has been given is refused. -/
theorem take_of_count_pos {g : Given} (h : 0 < o.count g.setting) : o.take g = .error .usage := by
  obtain ⟨s, value⟩ := g
  cases s with
  | docsBase =>
      cases hx : o.docsBase with
      | none => simp [count, hx] at h
      | some x => simp [take, set, hx]
  | format =>
      cases hx : o.format with
      | none => simp [count, hx] at h
      | some x => simp [take, set, hx]
  | logFilter =>
      cases hx : o.logFilter with
      | none => simp [count, hx] at h
      | some x => simp [take, set, hx]

theorem take_twice {g g' : Given} (h : g.setting = g'.setting) :
    (o.take g >>= (take · g')) = .error .usage := by
  cases h₁ : o.take g with
  | error e =>
      rw [take_eq_error h₁]
      rfl
  | ok o₁ =>
      refine take_of_count_pos ?_
      rw [count_set h₁, if_pos h]
      exact Nat.succ_pos _

theorem take_comm (o : Options) (g g' : Given) :
    (o.take g >>= (take · g')) = (o.take g' >>= (take · g)) := by
  by_cases h : g.setting = g'.setting
  · rw [take_twice h, take_twice h.symm]
  · -- different options have different fields
    obtain ⟨s, v⟩ := g
    obtain ⟨s', v'⟩ := g'
    cases s <;> cases s' <;> first | exact absurd rfl h | skip
    all_goals
      simp only [take, set, bind, Except.bind]
      grind

theorem foldlM_take_perm {given' : List Given} (h : given.Perm given') (o : Options) :
    given.foldlM take o = given'.foldlM take o :=
  foldlM_perm take_comm h o

theorem count_foldlM (h : given.foldlM take o = .ok o') (s : Setting) :
    o'.count s = o.count s + given.countP (·.setting = s) := by
  induction given generalizing o with
  | nil =>
      cases h
      rfl
  | cons g given ih =>
      rw [List.foldlM_cons] at h
      obtain ⟨o₁, h₁, h⟩ := bind_eq_ok_iff.1 h
      rw [ih h, count_set h₁ s, List.countP_cons]
      simp only [decide_eq_true_eq]
      omega

theorem take_or {g : Given} (h : b.count g.setting = 0) :
    (a.or b).take g = (a.take g).map (·.or b) := by
  obtain ⟨s, v⟩ := g
  cases s with
  | docsBase =>
      have hb : b.docsBase = none := by simpa [count] using h
      cases ha : a.docsBase <;> simp [take, set, Options.or, Except.map, ha, hb]
  | format =>
      have hb : b.format = none := by simpa [count] using h
      cases ha : a.format <;> cases hv : OutputFormat.ofName? v <;>
        simp [take, set, Options.or, Except.map, ha, hb, hv]
  | logFilter =>
      have hb : b.logFilter = none := by simpa [count] using h
      cases ha : a.logFilter <;> simp [take, set, Options.or, Except.map, ha, hb]

theorem foldlM_take_or (h : ∀ g ∈ given, b.count g.setting = 0) :
    given.foldlM take (a.or b) = (given.foldlM take a).map (·.or b) := by
  induction given generalizing a with
  | nil => rfl
  | cons g given ih =>
      obtain ⟨hg, hgiven⟩ := List.forall_mem_cons.1 h
      rw [List.foldlM_cons, List.foldlM_cons, take_or hg]
      cases a.take g with
      | error e => rfl
      | ok a₁ => exact ih hgiven

/-- What two levels collect, if no option is given at both, is what one level would. -/
theorem foldlM_take_append {before after : List Given}
    (hnd : ((before ++ after).map Given.setting).Nodup) (ha : before.foldlM take {} = .ok a) :
    (before ++ after).foldlM take {} = (after.foldlM take {}).map (·.or a) := by
  have hfree : ∀ g ∈ after, a.count g.setting = 0 := by
    intro g hg
    rw [count_foldlM ha, count_empty, Nat.zero_add, List.countP_eq_zero]
    intro g' hg'
    rw [List.map_append, List.nodup_append] at hnd
    simpa using hnd.2.2 _ (List.mem_map_of_mem hg') _ (List.mem_map_of_mem hg)
  rw [List.foldlM_append, ha]
  exact foldlM_take_or (a := {}) hfree

/-- An option that is given once is given at one level at most. -/
theorem count_add_count_le_one {before after : List Given}
    (hnd : ((before ++ after).map Given.setting).Nodup) (ha : before.foldlM take {} = .ok a)
    (hb : after.foldlM take {} = .ok b) (s : Setting) : a.count s + b.count s ≤ 1 := by
  have hcount := List.nodup_iff_count_le_one.1 hnd s
  rw [List.count_eq_countP, List.countP_map, List.countP_append] at hcount
  rw [count_foldlM ha, count_foldlM hb, count_empty, Nat.zero_add, Nat.zero_add]
  exact hcount

/-- The settings of the options of a command line that gives none twice. -/
def settings (o : Options) (env : Environment) : Except Stop Settings := do
  let format ← env.format?
  return .ofOptions (o.docsBase.or env.docsBase) ((o.format.or format).getD .text)

theorem settings_eq_error {stop : Stop} (h : o.settings env = .error stop) : stop = .usage := by
  rcases bind_eq_error_iff.1 h with h | ⟨format, -, h⟩
  · exact Environment.format?_eq_error h
  · cases h

end Options

/-- Where one level at most gives the format, the levels do not matter. -/
theorem Invocation.settings_eq (h : i.outer.count .format + i.inner.count .format ≤ 1) :
    i.settings env = (i.inner.or i.outer).settings env := by
  cases hi : i.inner.format with
  | none =>
      cases ho : i.outer.format <;> cases hv : env.format? <;>
        simp [settings, Options.settings, Options.formatIn, Options.or, hi, ho, hv, bind,
          Except.bind]
  | some f =>
      have ho : i.outer.format = none := by
        rw [← Options.count_format_eq_zero]
        simp only [Options.count, hi, Option.isSome_some, Bool.toNat_true] at h ⊢
        omega
      cases hv : env.format? <;>
        simp [settings, Options.settings, Options.formatIn, Options.or, hi, ho, hv, bind,
          Except.bind]

/-! ### Options among the words of a command -/

/-- The option that an item gives. -/
def Item.given? : Item → Option Given
  | setting s value => some { setting := s, value := value }
  | _ => none

theorem Item.eq_setting {g : Given} (h : item.given? = some g) :
    item = .setting g.setting g.value := by
  cases item with
  | setting s value =>
      cases h
      rfl
  | _ => cases h

namespace Tail

/-- What has been read, with other options. -/
def withOptions (t : Tail) (o : Options) : Tail :=
  { t with options := o }

@[simp]
theorem options_withOptions (t : Tail) (o : Options) : (t.withOptions o).options = o :=
  rfl

theorem add_eq_error {e : Stop} (h : t.add name item = .error e) (hhelp : item ≠ .flag .help) :
    e = .usage := by
  cases item with
  | setting s value =>
      refine Options.take_eq_error (o := t.options) (g := ⟨s, value⟩) ?_
      cases hs : t.options.set s value with
      | ok o => simp [add, hs, Except.map] at h
      | error e' =>
          rw [Options.take, hs]
          simpa [add, hs, Except.map] using h
  | flag f =>
      cases f with
      | all =>
          simp only [add] at h
          split at h <;> cases h
          rfl
      | help => exact absurd rfl hhelp
      | version =>
          cases h
          rfl
  | operand text =>
      simp only [add] at h
      split at h <;> cases h
      rfl
  | rest => cases h
  | unknown =>
      cases h
      rfl

/-- A word is read whatever the options are, and leaves them as they are. -/
theorem add_withOptions (h : item.given? = none) (o : Options) :
    (t.withOptions o).add name item = (t.add name item).map (·.withOptions o) := by
  cases item with
  | setting s value => cases h
  | flag f =>
      cases f with
      | all =>
          by_cases hall : name = .list ∧ t.all = false <;> simp [add, withOptions, Except.map, hall]
      | help => rfl
      | version => rfl
  | operand text =>
      by_cases htakes : name.takes text = true ∧ t.operand = none <;>
        simp [add, withOptions, Except.map, htakes]
  | rest => rfl
  | unknown => rfl

theorem options_add (h : item.given? = none) (hadd : t.add name item = .ok t') :
    t'.options = t.options := by
  have hsame : t.add name item = (t.add name item).map (·.withOptions t.options) :=
    add_withOptions h t.options
  rw [hadd] at hsame
  rw [Except.ok.inj hsame]
  rfl

theorem foldlM_withOptions {items : List Item} (h : ∀ item ∈ items, item.given? = none)
    (o : Options) :
    items.foldlM (add name) (t.withOptions o) =
      (items.foldlM (add name) t).map (·.withOptions o) := by
  induction items generalizing t with
  | nil => rfl
  | cons item items ih =>
      obtain ⟨hitem, hitems⟩ := List.forall_mem_cons.1 h
      rw [List.foldlM_cons, List.foldlM_cons, add_withOptions hitem]
      cases t.add name item with
      | error e => rfl
      | ok t₁ => exact ih hitems

/-- The options among some items and the words among them are read independently. -/
theorem foldlM_add {items : List Item} (h : .flag .help ∉ items) :
    items.foldlM (add name) t = (do
      let o ← (items.filterMap Item.given?).foldlM Options.take t.options
      let t' ← (items.filter fun item => item.given? = none).foldlM (add name) t
      return t'.withOptions o) := by
  induction items generalizing t with
  | nil => rfl
  | cons item items ih =>
      obtain ⟨hne, hitems⟩ := not_or.1 (mt List.mem_cons.2 h)
      have hwords : ∀ item ∈ items.filter fun item => item.given? = none, item.given? = none :=
        fun item hitem => by simpa using (List.mem_filter.1 hitem).2
      rw [List.foldlM_cons]
      cases hgiven : item.given? with
      | some g =>
          obtain rfl := Item.eq_setting hgiven
          have hadd : t.add name (.setting g.setting g.value) =
              (t.options.take g).map t.withOptions := rfl
          rw [hadd, List.filterMap_cons_some hgiven, List.filter_cons_of_neg (by simp [hgiven]),
            List.foldlM_cons]
          cases t.options.take g with
          | error e => rfl
          | ok o =>
              refine (ih hitems).trans ?_
              rw [foldlM_withOptions hwords, options_withOptions]
              show _ = (items.filterMap Item.given?).foldlM Options.take o >>= _
              cases (items.filterMap Item.given?).foldlM Options.take o with
              | error e => rfl
              | ok o' =>
                  cases (items.filter fun item => item.given? = none).foldlM (add name) t <;> rfl
      | none =>
          rw [List.filterMap_cons_none hgiven, List.filter_cons_of_pos (by simp [hgiven]),
            List.foldlM_cons]
          cases hadd : t.add name item with
          | error e =>
              obtain rfl := add_eq_error hadd (Ne.symm hne)
              -- whichever is looked at first, the command line makes no sense
              cases ho : (items.filterMap Item.given?).foldlM Options.take t.options with
              | error e' => rw [Options.foldlM_take_eq_error ho]; rfl
              | ok o => rfl
          | ok t₁ =>
              refine (ih hitems).trans ?_
              rw [options_add hgiven hadd]
              rfl

end Tail

end CommandLine

end TaskFlow
