import TaskFlow.Proofs.Registry.Consistency

/-! # Which defect of a registry is named

A registry is looked through three times, and the first defect that is met is named
(`Registry.Meets`): a descriptor that repeats a task type or has no label, then a task type that is
not at its position, then a task type that is selected again.  What is named is true of the registry
as a whole (`Registry.Truthful`), since each pass may rely on those before it: a position that the
table does not reach belongs to a task type without a descriptor, and a selected task type has one.

The check names the defect that is met first, and the kind and the text that are shown of it
(`Registry.Defect.ShownAs`) are those of no other defect (`check_names_first`). -/

namespace TaskFlow

namespace Registry

variable {r : Registry} {known seen listed ts : List TaskType} {ds : List Descriptor} {e : Defect}
  {t : TaskType}

/-! ### What is met first -/

/-- No descriptor repeats a task type, and all have labels. -/
structure Flawless (ds : List Descriptor) : Prop where
  distinct : (ds.map Descriptor.taskType).Nodup
  labels : ∀ d ∈ ds, d.label ≠ ""

/-- Of the descriptors, `d` is the first that repeats the task type of one before it or has no
label; those before it are `before`. -/
structure FirstFlawed (ds before : List Descriptor) (d : Descriptor) : Prop where
  split : ∃ after, ds = before ++ d :: after
  flawless : Flawless before
  flawed : d.taskType ∈ before.map Descriptor.taskType ∨ d.label = ""

/-- The descriptor at the table position of the task type is one of it. -/
def Holds (r : Registry) (t : TaskType) : Prop :=
  r.present[t.index]? = some t

/-- The task type is the first in table order whose position does not hold it. -/
structure FirstVacant (r : Registry) (t : TaskType) : Prop where
  vacant : ¬ r.Holds t
  first : ∀ s : TaskType, s.index < t.index → r.Holds s

/-- In the list, `t` is the first entry that repeats one before it; those before it are `before`. -/
structure FirstRepeated (ts before : List TaskType) (t : TaskType) : Prop where
  split : ∃ after, ts = before ++ t :: after
  distinct : before.Nodup
  repeated : t ∈ before

/-- The defect that is met first. -/
inductive Meets (r : Registry) : Defect → Prop
  | repeated {before : List Descriptor} {d : Descriptor} (h : FirstFlawed r.descriptors before d)
      (hd : d.taskType ∈ before.map Descriptor.taskType) : Meets r (.repeated d.taskType)
  | unnamed {before : List Descriptor} {d : Descriptor} (h : FirstFlawed r.descriptors before d)
      (hd : d.taskType ∉ before.map Descriptor.taskType) : Meets r (.unnamed d.taskType)
  | misplaced {t : TaskType} (hflawless : Flawless r.descriptors) (h : r.FirstVacant t)
      (ht : t ∈ r.present) : Meets r (.misplaced t)
  | missing {t : TaskType} (hflawless : Flawless r.descriptors) (h : r.FirstVacant t)
      (ht : t ∉ r.present) : Meets r (.missing t)
  | orphan {before : List TaskType} {t : TaskType} (hflawless : Flawless r.descriptors)
      (hholds : ∀ s, r.Holds s) (h : FirstRepeated r.selectable before t) : Meets r (.orphan t)

/-- What the defect says is true of the registry. -/
def Truthful (r : Registry) : Defect → Prop
  | .repeated t => 2 ≤ r.present.count t
  | .unnamed t => ∃ d, r.descriptors.find? (fun d => d.taskType = t) = some d ∧ d.label = ""
  | .misplaced t => r.present.count t = 1 ∧ ∃ i, r.present[i]? = some t ∧ i ≠ t.index
  | .missing t => ∀ d ∈ r.descriptors, d.taskType ≠ t
  | .orphan t => 2 ≤ r.selectable.count t ∧ t ∈ r.present

/-! ### Positions of the table -/

theorem getElem?_all_eq_some_iff {i : Nat} : TaskType.all[i]? = some t ↔ t.index = i := by
  constructor
  · intro h
    have hlt : i < TaskType.all.length := (List.getElem?_eq_some_iff.1 h).1
    exact ((List.getElem?_inj hlt nodup_all).1
      (h.trans (TaskType.getElem?_all_index t).symm)).symm
  · rintro rfl
    exact TaskType.getElem?_all_index t

theorem index_eq_length {before after : List TaskType} (h : TaskType.all = before ++ t :: after) :
    t.index = before.length := by
  rw [← getElem?_all_eq_some_iff, h, List.getElem?_append_right le_rfl, Nat.sub_self,
    List.getElem?_cons_zero]

theorem index_getElem {before after : List TaskType} (h : TaskType.all = before ++ after) {i : Nat}
    (hi : i < before.length) : before[i].index = i := by
  rw [← getElem?_all_eq_some_iff, h, List.getElem?_append_left hi, List.getElem?_eq_getElem hi]

theorem mem_iff_index_lt {before after : List TaskType} (h : TaskType.all = before ++ after) :
    t ∈ before ↔ t.index < before.length := by
  constructor
  · intro ht
    obtain ⟨i, hi, rfl⟩ := List.mem_iff_getElem.1 ht
    rwa [index_getElem h hi]
  · intro hlt
    have hget := TaskType.getElem?_all_index t
    rw [h, List.getElem?_append_left hlt] at hget
    exact List.mem_of_getElem? hget

/-- The table begins with task types whose positions hold them. -/
theorem prefix_present {before after : List TaskType} (h : TaskType.all = before ++ after)
    (hholds : ∀ s ∈ before, r.Holds s) : before <+: r.present := by
  rw [List.prefix_iff_getElem?]
  intro i hi
  have hget := hholds before[i] (List.getElem_mem hi)
  rwa [Holds, index_getElem h hi] at hget

/-! ### Some defect is met -/

/-- What holds of the empty list but not of all of a list is broken by an entry for the first time. -/
theorem exists_first_breach {α : Type} {P : List α → Prop} (hnil : P []) {l : List α} (h : ¬ P l) :
    ∃ before a after, l = before ++ a :: after ∧ P before ∧ ¬ P (before ++ [a]) := by
  induction l using List.reverseRecOn with
  | nil => exact absurd hnil h
  | append_singleton l a ih =>
      by_cases hl : P l
      · exact ⟨l, a, [], rfl, hl, h⟩
      · obtain ⟨before, b, after, rfl, hbefore, hbreach⟩ := ih hl
        exact ⟨before, b, after ++ [a], by simp, hbefore, hbreach⟩

theorem flawless_nil : Flawless [] where
  distinct := List.nodup_nil
  labels := List.forall_mem_nil _

theorem nodup_concat_iff {α : Type} {before : List α} {a : α} (h : before.Nodup) :
    (before ++ [a]).Nodup ↔ a ∉ before := by
  rw [← List.concat_eq_append, List.nodup_concat, and_iff_left h]

theorem exists_firstFlawed (h : ¬ Flawless ds) : ∃ before d, FirstFlawed ds before d := by
  obtain ⟨before, d, after, rfl, hbefore, hbreach⟩ := exists_first_breach flawless_nil h
  refine ⟨before, d, ⟨after, rfl⟩, hbefore, ?_⟩
  by_contra hd
  rw [not_or] at hd
  refine hbreach ⟨?_, ?_⟩
  · rw [List.map_append, List.map_singleton, nodup_concat_iff hbefore.distinct]
    exact hd.1
  · exact List.forall_mem_append.2 ⟨hbefore.labels, List.forall_mem_singleton.2 hd.2⟩

theorem exists_firstRepeated (h : ¬ ts.Nodup) : ∃ before t, FirstRepeated ts before t := by
  obtain ⟨before, t, after, rfl, hbefore, hbreach⟩ := exists_first_breach List.nodup_nil h
  rw [nodup_concat_iff hbefore, not_not] at hbreach
  exact ⟨before, t, ⟨after, rfl⟩, hbefore, hbreach⟩

theorem exists_firstVacant (h : ¬ ∀ t, r.Holds t) : ∃ t, r.FirstVacant t := by
  have hall : ¬ ∀ t ∈ TaskType.all, r.Holds t := fun hall => h fun t => hall t (TaskType.mem_all t)
  obtain ⟨before, t, after, hsplit, hbefore, hbreach⟩ :=
    exists_first_breach (P := fun ts => ∀ s ∈ ts, r.Holds s) (List.forall_mem_nil _) hall
  refine ⟨t, fun ht => hbreach ?_, fun s hs => ?_⟩
  · exact List.forall_mem_append.2 ⟨hbefore, List.forall_mem_singleton.2 ht⟩
  · rw [index_eq_length hsplit] at hs
    exact hbefore s ((mem_iff_index_lt hsplit).2 hs)

/-! ### The passes up to the defect -/

theorem Flawless.checkDescriptors_eq_ok (h : Flawless ds) : checkDescriptors [] ds = .ok () :=
  checkDescriptors_eq_ok_iff.2 ⟨fun _ _ => List.not_mem_nil, h.distinct, h.labels⟩

theorem checkDescriptors_append {before after : List Descriptor}
    (h : checkDescriptors seen before = .ok ()) :
    checkDescriptors seen (before ++ after) =
      checkDescriptors ((before.map Descriptor.taskType).reverse ++ seen) after := by
  induction before generalizing seen with
  | nil => rfl
  | cons d before ih =>
      unfold checkDescriptors at h
      rw [List.cons_append, checkDescriptors]
      split at h
      · cases h
      · split at h
        · cases h
        · rename_i hseen hlabel
          rw [if_neg hseen, if_neg hlabel, ih h]
          simp

theorem checkPositions_append {before : List TaskType}
    (h : before <+: ds.map Descriptor.taskType) :
    checkPositions known (before ++ ts) ds = checkPositions known ts (ds.drop before.length) := by
  induction before generalizing ds with
  | nil => rfl
  | cons t before ih =>
      cases ds with
      | nil => cases List.prefix_nil.1 h
      | cons d ds =>
          rw [List.map_cons, List.cons_prefix_cons] at h
          obtain ⟨rfl, h⟩ := h
          rw [List.cons_append, checkPositions, if_pos rfl, ih h, List.length_cons,
            List.drop_succ_cons]

theorem checkSelectable_append {before after : List TaskType}
    (h : checkSelectable known listed before = .ok ()) :
    checkSelectable known listed (before ++ after) =
      checkSelectable known (before.reverse ++ listed) after := by
  induction before generalizing listed with
  | nil => rfl
  | cons t before ih =>
      unfold checkSelectable at h
      rw [List.cons_append, checkSelectable]
      split at h
      · rename_i ht
        rw [if_pos ht, ih h]
        simp
      · cases h

/-- The first pass ends at the first descriptor with a flaw. -/
theorem checkDescriptors_of_firstFlawed {before : List Descriptor} {d : Descriptor}
    (h : FirstFlawed ds before d) :
    checkDescriptors [] ds = .error (if d.taskType ∈ before.map Descriptor.taskType
      then .repeated d.taskType else .unnamed d.taskType) := by
  obtain ⟨after, rfl⟩ := h.split
  rw [checkDescriptors_append h.flawless.checkDescriptors_eq_ok, checkDescriptors, List.append_nil]
  simp only [List.mem_reverse]
  by_cases hd : d.taskType ∈ before.map Descriptor.taskType
  · rw [if_pos hd, if_pos hd]
  · rw [if_neg hd, if_neg hd, if_pos (h.flawed.resolve_left hd)]

/-- The third pass ends at the first task type that is selected again. -/
theorem checkSelectable_of_firstRepeated {before : List TaskType} (hknown : ∀ s, s ∈ known)
    (h : FirstRepeated ts before t) : checkSelectable known [] ts = .error (.orphan t) := by
  obtain ⟨after, rfl⟩ := h.split
  have hbefore : checkSelectable known [] before = .ok () :=
    checkSelectable_eq_ok_iff.2 ⟨fun s _ => hknown s, fun _ _ => List.not_mem_nil, h.distinct⟩
  rw [checkSelectable_append hbefore, checkSelectable, List.append_nil, if_neg]
  exact fun hnew => hnew.2 (List.mem_reverse.2 h.repeated)

/-- The second pass ends at the first position that does not hold its task type. -/
theorem checkPositions_of_firstVacant (h : r.FirstVacant t) :
    checkPositions r.present TaskType.all r.descriptors =
      .error (if t ∈ r.present then .misplaced t else .missing t) := by
  obtain ⟨before, after, hall⟩ := List.append_of_mem (TaskType.mem_all t)
  have hindex : t.index = before.length := index_eq_length hall
  have hbefore : ∀ s ∈ before, r.Holds s := fun s hs =>
    h.first s (hindex ▸ (mem_iff_index_lt hall).1 hs)
  have hpre : before <+: r.present := prefix_present hall hbefore
  have hvacant := h.vacant
  rw [Holds, hindex, present, List.getElem?_map] at hvacant
  rw [hall, checkPositions_append hpre]
  cases hrest : r.descriptors.drop before.length with
  | nil =>
      -- The table ends before the position, so that it holds what comes before `t` and no more.
      have hle : r.present.length ≤ before.length := by
        rw [present, List.length_map]
        exact List.drop_eq_nil_iff.1 hrest
      rw [checkPositions, ← hpre.eq_of_length_le hle, if_neg]
      rw [mem_iff_index_lt hall, hindex]
      exact lt_irrefl _
  | cons d rest =>
      have hget : r.descriptors[before.length]? = some d := by
        rw [← List.head?_drop, hrest, List.head?_cons]
      have hne : d.taskType ≠ t := fun heq => hvacant (by rw [hget, ← heq]; rfl)
      rw [checkPositions, if_neg hne]
      split <;> rfl

/-! ### The whole check -/

theorem prefix_present_all (h : ∀ s, r.Holds s) : TaskType.all <+: r.present :=
  prefix_present (List.append_nil _).symm fun s _ => h s

/-- Where no defect is met, the registry is consistent. -/
theorem consistent_or_meets (r : Registry) : r.Consistent ∨ ∃ e, r.Meets e := by
  by_cases hflawless : Flawless r.descriptors
  · by_cases hholds : ∀ s, r.Holds s
    · by_cases hselection : r.selectable.Nodup
      · exact .inl ⟨eq_all_of_prefix_of_nodup (prefix_present_all hholds) hflawless.distinct,
          hflawless.labels, hselection⟩
      · obtain ⟨before, t, h⟩ := exists_firstRepeated hselection
        exact .inr ⟨_, .orphan hflawless hholds h⟩
    · obtain ⟨t, h⟩ := exists_firstVacant hholds
      by_cases ht : t ∈ r.present
      · exact .inr ⟨_, .misplaced hflawless h ht⟩
      · exact .inr ⟨_, .missing hflawless h ht⟩
  · obtain ⟨before, d, h⟩ := exists_firstFlawed hflawless
    by_cases hd : d.taskType ∈ before.map Descriptor.taskType
    · exact .inr ⟨_, .repeated h hd⟩
    · exact .inr ⟨_, .unnamed h hd⟩

theorem check_of_firstFlawed {before : List Descriptor} {d : Descriptor}
    (h : FirstFlawed r.descriptors before d) :
    r.check = .error (if d.taskType ∈ before.map Descriptor.taskType
      then .repeated d.taskType else .unnamed d.taskType) := by
  rw [check, checkDescriptors_of_firstFlawed h]
  rfl

theorem check_of_firstVacant (hflawless : Flawless r.descriptors) (h : r.FirstVacant t) :
    r.check = .error (if t ∈ r.present then .misplaced t else .missing t) := by
  rw [check, hflawless.checkDescriptors_eq_ok, checkPositions_of_firstVacant h]
  rfl

theorem check_of_firstRepeated {before : List TaskType} (hflawless : Flawless r.descriptors)
    (hholds : ∀ s, r.Holds s) (h : FirstRepeated r.selectable before t) :
    r.check = .error (.orphan t) := by
  have hpositions : checkPositions r.present TaskType.all r.descriptors = .ok () :=
    checkPositions_eq_ok_iff.2 (prefix_present_all hholds)
  rw [check, hflawless.checkDescriptors_eq_ok, hpositions,
    checkSelectable_of_firstRepeated (fun s => List.mem_of_getElem? (hholds s)) h]
  rfl

/-- The defect that is met first is named. -/
theorem check_of_meets (h : r.Meets e) : r.check = .error e := by
  cases h with
  | repeated h hd => rw [check_of_firstFlawed h, if_pos hd]
  | unnamed h hd => rw [check_of_firstFlawed h, if_neg hd]
  | misplaced hflawless h ht => rw [check_of_firstVacant hflawless h, if_pos ht]
  | missing hflawless h ht => rw [check_of_firstVacant hflawless h, if_neg ht]
  | orphan hflawless hholds h => exact check_of_firstRepeated hflawless hholds h

theorem check_eq_error_iff_meets : r.check = .error e ↔ r.Meets e := by
  refine ⟨fun h => ?_, check_of_meets⟩
  rcases consistent_or_meets r with hconsistent | ⟨e', he'⟩
  · rw [check_eq_ok_iff_consistent.2 hconsistent] at h
    cases h
  · rw [check_of_meets he'] at h
    exact Except.error.inj h ▸ he'

/-! ### What is named is true -/

/-- An entry that repeats one before it is there at least twice. -/
theorem two_le_count {α : Type} [DecidableEq α] {before after : List α} {a : α} (h : a ∈ before) :
    2 ≤ (before ++ a :: after).count a := by
  have hpos : 0 < before.count a := List.count_pos_iff.2 h
  rw [List.count_append, List.count_cons_self]
  omega

/-- The first descriptor of a task type is found before others of it. -/
theorem find?_append_cons {before after : List Descriptor} {d : Descriptor}
    (h : d.taskType ∉ before.map Descriptor.taskType) :
    (before ++ d :: after).find? (fun e => e.taskType = d.taskType) = some d := by
  have hbefore : before.find? (fun e => e.taskType = d.taskType) = none := by
    rw [List.find?_eq_none]
    intro e he heq
    exact h (List.mem_map.2 ⟨e, he, of_decide_eq_true heq⟩)
  rw [List.find?_append, hbefore, Option.none_or]
  exact List.find?_cons_of_pos (decide_eq_true rfl)

/-- What is met first is true of the registry. -/
theorem Meets.truthful (h : r.Meets e) : r.Truthful e := by
  cases h with
  | @repeated before d h hd =>
      obtain ⟨after, hsplit⟩ := h.split
      show 2 ≤ r.present.count d.taskType
      rw [present, hsplit, List.map_append, List.map_cons]
      exact two_le_count hd
  | @unnamed before d h hd =>
      obtain ⟨after, hsplit⟩ := h.split
      refine ⟨d, ?_, h.flawed.resolve_left hd⟩
      rw [hsplit]
      exact find?_append_cons hd
  | @misplaced t hflawless h ht =>
      refine ⟨List.count_eq_one_of_mem hflawless.distinct ht, ?_⟩
      obtain ⟨i, hi⟩ := List.mem_iff_getElem?.1 ht
      refine ⟨i, hi, ?_⟩
      rintro rfl
      exact h.vacant hi
  | @missing t hflawless h ht =>
      exact fun d hd heq => ht (List.mem_map.2 ⟨d, hd, heq⟩)
  | @orphan before t hflawless hholds h =>
      obtain ⟨after, hsplit⟩ := h.split
      refine ⟨?_, List.mem_of_getElem? (hholds t)⟩
      rw [hsplit]
      exact two_le_count h.repeated

/-! ### What is shown -/

/-- What a user sees of a defect: the kind, the task type concerned and the text. -/
inductive Defect.ShownAs : Defect → Fault → Prop
  | repeated (t : TaskType) : ShownAs (.repeated t)
      { kind := .duplicateDescriptor
        taskType := some t
        message := "task type '" ++ t.name ++ "' has more than one descriptor" }
  | unnamed (t : TaskType) : ShownAs (.unnamed t)
      { kind := .missingDescriptor
        taskType := some t
        message := "task type '" ++ t.name ++ "' has an empty display alias" }
  | misplaced (t : TaskType) : ShownAs (.misplaced t)
      { kind := .missingDescriptor
        taskType := some t
        message := "descriptor for task type '" ++ t.name ++ "' is out of order" }
  | missing (t : TaskType) : ShownAs (.missing t)
      { kind := .missingDescriptor
        taskType := some t
        message := "missing descriptor for task type '" ++ t.name ++ "'" }
  | orphan (t : TaskType) : ShownAs (.orphan t)
      { kind := .orphanSelectable
        taskType := some t
        message := "selectable task type '" ++ t.name ++ "' is listed twice or has no descriptor" }

theorem Defect.shownAs_iff {f : Fault} : e.ShownAs f ↔ e.fault = f := by
  constructor
  · intro h
    cases h with
    | _ t => rfl
  · rintro rfl
    cases e with
    | repeated t => exact .repeated t
    | unnamed t => exact .unnamed t
    | misplaced t => exact .misplaced t
    | missing t => exact .missing t
    | orphan t => exact .orphan t

/-- The first letter of a message. -/
def Defect.initial : Defect → Char
  | .repeated _ | .unnamed _ => 't'
  | .misplaced _ => 'd'
  | .missing _ => 'm'
  | .orphan _ => 's'

theorem Defect.head?_message (e : Defect) : e.message.toList.head? = some e.initial := by
  cases e with
  | _ t =>
      unfold Defect.message
      simp [Defect.initial]

/-- A defect is told by what is shown of it. -/
theorem Defect.fault_injective : Function.Injective Defect.fault := by
  intro e e' h
  obtain ⟨hkind, hmessage, htype⟩ := Fault.mk.inj h
  have hinitial := congrArg (fun m => m.toList.head?) hmessage
  simp only [Defect.head?_message] at hinitial
  -- The kind or the first letter of the message tells the constructor.
  cases e <;> cases e' <;> cases htype <;>
    first | rfl | (cases hkind; done) | cases hinitial

/-- **The defect that is named is the one that is met first, and it is true of the registry.**  The
check fails with a fault exactly if the fault shows the defect that is met first; what the fault says
is then true of the whole registry, and there is no other defect that it could show. -/
theorem check_names_first (r : Registry) (f : Fault) :
    (r.check.mapError Defect.fault = .error f ↔ ∃ e : Defect, e.ShownAs f ∧ r.Meets e) ∧
      ∀ e : Defect, e.ShownAs f → r.Meets e →
        r.Truthful e ∧ ∀ e' : Defect, e'.ShownAs f → e' = e := by
  refine ⟨?_, fun e he hmeets => ⟨hmeets.truthful, fun e' he' => ?_⟩⟩
  · rw [mapError_eq_error_iff]
    exact exists_congr fun e => by rw [check_eq_error_iff_meets, Defect.shownAs_iff, and_comm]
  · rw [Defect.shownAs_iff] at he he'
    exact Defect.fault_injective (he'.trans he.symm)

/-- The registry in use, with its first two descriptors in each other's place and a selection that
repeats one. -/
def swapped : Registry where
  descriptors := [.subProcess, .shell].map TaskType.descriptor ++
    (TaskType.all.drop 2).map TaskType.descriptor
  selectable := [.sql, .sql]

/-- What the check of `swapped` says. -/
def swappedFault : Fault where
  kind := .missingDescriptor
  taskType := some .shell
  message := "descriptor for task type 'SHELL' is out of order"

theorem check_swapped :
    swapped.check.mapError Defect.fault = .error swappedFault ∧
      swapped.present.count .shell = 1 ∧ ∃ i, swapped.present[i]? = some .shell ∧ i ≠ 0 := by
  have hcheck : swapped.check.mapError Defect.fault = .error swappedFault := by rfl
  have hshown : (Defect.misplaced .shell).ShownAs swappedFault := .misplaced .shell
  obtain ⟨hiff, htruthful⟩ := check_names_first swapped swappedFault
  obtain ⟨e, he, hmeets⟩ := hiff.1 hcheck
  obtain ⟨htrue, honly⟩ := htruthful e he hmeets
  obtain rfl := honly _ hshown
  exact ⟨hcheck, htrue⟩

end Registry

end TaskFlow
