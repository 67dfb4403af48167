import Mathlib.Data.List.Forall2
import Mathlib.Data.List.Infix
import Mathlib.Data.List.Nodup
import TaskFlow.Command.Catalogue
import TaskFlow.Result

/-! # Which registries are consistent

`Registry.Consistent` says of a registry as a whole what the check looks for entry by entry.  Each of
the three passes of the check is settled by itself: the descriptors repeat no task type and have
labels (`checkDescriptors_eq_ok_iff`), they begin with all task types in table order
(`checkPositions_eq_ok_iff`), and the selection repeats nothing (`checkSelectable_eq_ok_iff`).  No
pass looks at the length of the table.  That nothing follows all task types is due to the first pass:
a further descriptor would repeat one of them (`eq_all_of_prefix_of_nodup`).

The registries that pass are the consistent ones, and what is looked up in them is found
(`check_succeeds_iff`). -/

namespace TaskFlow

namespace Registry

variable {r : Registry} {known seen listed ts : List TaskType} {ds : List Descriptor}

/-- The table lists every task type once, in table order and with a label, and the selection repeats
nothing. -/
structure Consistent (r : Registry) : Prop where
  types : r.descriptors.map Descriptor.taskType = TaskType.all
  labels : ∀ d ∈ r.descriptors, d.label ≠ ""
  selection : r.selectable.Nodup

/-! ### The passes of the check -/

theorem checkDescriptors_eq_ok_iff :
    checkDescriptors seen ds = .ok () ↔
      (∀ d ∈ ds, d.taskType ∉ seen) ∧ (ds.map Descriptor.taskType).Nodup ∧
        ∀ d ∈ ds, d.label ≠ "" := by
  induction ds generalizing seen with
  | nil => simp [checkDescriptors]
  | cons d ds ih =>
      unfold checkDescriptors
      split
      · rename_i hseen
        simp [hseen]
      · rename_i hseen
        split
        · rename_i hlabel
          simp [hlabel]
        · rename_i hlabel
          rw [ih, List.map_cons, List.nodup_cons, List.forall_mem_cons, List.forall_mem_cons,
            List.mem_map]
          constructor
          · rintro ⟨hfresh, hnd, hlabels⟩
            refine ⟨⟨hseen, fun e he => ?_⟩, ⟨?_, hnd⟩, hlabel, hlabels⟩
            · exact fun hmem => hfresh e he (List.mem_cons_of_mem _ hmem)
            · rintro ⟨e, he, heq⟩
              exact hfresh e he (heq ▸ List.mem_cons_self)
          · rintro ⟨⟨-, hfresh⟩, ⟨hnew, hnd⟩, -, hlabels⟩
            refine ⟨fun e he hmem => ?_, hnd, hlabels⟩
            rcases List.mem_cons.1 hmem with heq | hmem
            · exact hnew ⟨e, he, heq⟩
            · exact hfresh e he hmem

theorem checkPositions_eq_ok_iff :
    checkPositions known ts ds = .ok () ↔ ts <+: ds.map Descriptor.taskType := by
  induction ts generalizing ds with
  | nil => simp [checkPositions]
  | cons t ts ih =>
      cases ds with
      | nil => simp [checkPositions]
      | cons d ds =>
          rw [List.map_cons, List.cons_prefix_cons]
          unfold checkPositions
          split
          · rename_i heq
            rw [ih, and_iff_right heq.symm]
          · rename_i hne
            split
            · exact iff_of_false nofun fun h => hne h.1.symm
            · exact iff_of_false nofun fun h => hne h.1.symm

theorem checkSelectable_eq_ok_iff :
    checkSelectable known listed ts = .ok () ↔
      (∀ t ∈ ts, t ∈ known) ∧ (∀ t ∈ ts, t ∉ listed) ∧ ts.Nodup := by
  induction ts generalizing listed with
  | nil => simp [checkSelectable]
  | cons t ts ih =>
      unfold checkSelectable
      split
      · rename_i h
        obtain ⟨hknown, hlisted⟩ := h
        rw [ih, List.nodup_cons, List.forall_mem_cons, List.forall_mem_cons]
        constructor
        · rintro ⟨hall, hfresh, hnd⟩
          refine ⟨⟨hknown, hall⟩, ⟨hlisted, fun s hs => ?_⟩, fun hmem => ?_, hnd⟩
          · exact fun hmem => hfresh s hs (List.mem_cons_of_mem t hmem)
          · exact hfresh t hmem List.mem_cons_self
        · rintro ⟨⟨-, hall⟩, ⟨-, hfresh⟩, hnew, hnd⟩
          refine ⟨hall, fun s hs hmem => ?_, hnd⟩
          rcases List.mem_cons.1 hmem with rfl | hmem
          · exact hnew hs
          · exact hfresh s hs hmem
      · rename_i h
        rw [List.forall_mem_cons, List.forall_mem_cons]
        refine iff_of_false nofun ?_
        rintro ⟨⟨hknown, -⟩, ⟨hlisted, -⟩, -⟩
        exact h ⟨hknown, hlisted⟩

/-! ### The whole check -/

/-- After all task types there is no room for another. -/
theorem eq_all_of_prefix_of_nodup (hpre : TaskType.all <+: ts) (hnd : ts.Nodup) : ts = TaskType.all := by
  obtain ⟨rest, rfl⟩ := hpre
  cases rest with
  | nil => exact List.append_nil _
  | cons t rest =>
      exact absurd rfl ((List.nodup_append.1 hnd).2.2 t (TaskType.mem_all t) t List.mem_cons_self)

theorem check_eq_ok_iff :
    r.check = .ok () ↔
      checkDescriptors [] r.descriptors = .ok () ∧
        checkPositions r.present TaskType.all r.descriptors = .ok () ∧
          checkSelectable r.present [] r.selectable = .ok () := by
  rw [check, bind_unit_eq_ok_iff, bind_unit_eq_ok_iff]

theorem nodup_all : TaskType.all.Nodup := by
  decide

/-- The registries that pass the check are the consistent ones. -/
theorem check_eq_ok_iff_consistent : r.check = .ok () ↔ r.Consistent := by
  rw [check_eq_ok_iff, checkDescriptors_eq_ok_iff, checkPositions_eq_ok_iff,
    checkSelectable_eq_ok_iff]
  constructor
  · rintro ⟨⟨-, hnd, hlabels⟩, hpre, -, -, hselection⟩
    exact ⟨eq_all_of_prefix_of_nodup hpre hnd, hlabels, hselection⟩
  · rintro ⟨htypes, hlabels, hselection⟩
    rw [present, htypes]
    refine ⟨⟨fun _ _ => List.not_mem_nil, nodup_all, hlabels⟩, List.prefix_refl _, ?_⟩
    exact ⟨fun t _ => TaskType.mem_all t, fun _ _ => List.not_mem_nil, hselection⟩

/-! ### Look-up -/

/-- In a consistent table the descriptor of a task type stands at its position. -/
theorem Consistent.exists_describe? (h : r.Consistent) (t : TaskType) :
    ∃ d, r.describe? t = some d ∧ d.taskType = t := by
  have hget := TaskType.getElem?_all_index t
  rw [← h.types, List.getElem?_map] at hget
  exact Option.map_eq_some_iff.1 hget

/-- There is no other descriptor of the task type. -/
theorem Consistent.eq_of_taskType_eq (h : r.Consistent) {d e : Descriptor}
    (hd : d ∈ r.descriptors) (he : e ∈ r.descriptors) (heq : d.taskType = e.taskType) : d = e := by
  have hnd : (r.descriptors.map Descriptor.taskType).Nodup := by
    rw [h.types]
    exact nodup_all
  exact List.inj_on_of_nodup_map hnd hd he heq

/-- Of a selection of which everything is found nothing is left out. -/
theorem forall₂_filterMap_describe? (h : ∀ t, ∃ d, r.describe? t = some d ∧ d.taskType = t)
    (ts : List TaskType) :
    List.Forall₂ (fun d t => r.describe? t = some d ∧ d.taskType = t)
      (ts.filterMap r.describe?) ts := by
  induction ts with
  | nil => exact .nil
  | cons t ts ih =>
      obtain ⟨d, hd, htype⟩ := h t
      rw [List.filterMap_cons_some hd]
      exact .cons ⟨hd, htype⟩ ih

/-- **The check accepts the consistent registries and no others.**  In a registry that passes there is
at the table position of each task type its descriptor, the only one it has, so that every look-up
finds it: of the descriptor itself, of whether the task type runs as a stream, and of the descriptors
of the selection one by one. -/
theorem check_succeeds_iff (r : Registry) :
    (r.check = .ok () ↔ r.Consistent) ∧
      (r.check = .ok () →
        (∀ t, ∃ d, r.descriptors[t.index]? = some d ∧ d.taskType = t ∧
          (∀ e ∈ r.descriptors, e.taskType = t → e = d) ∧
          r.describe? t = some d ∧ r.isStreaming? t = some d.isStreaming) ∧
        List.Forall₂ (fun d t => r.describe? t = some d ∧ d.taskType = t)
          r.selected r.selectable) := by
  refine ⟨check_eq_ok_iff_consistent, fun hcheck => ?_⟩
  have h := check_eq_ok_iff_consistent.1 hcheck
  refine ⟨fun t => ?_, forall₂_filterMap_describe? h.exists_describe? r.selectable⟩
  obtain ⟨d, hd, rfl⟩ := h.exists_describe? t
  have hmem : d ∈ r.descriptors := List.mem_of_getElem? hd
  refine ⟨d, hd, rfl, fun e he heq => h.eq_of_taskType_eq he hmem heq, hd, ?_⟩
  rw [isStreaming?, hd, Option.map_some]

/-- The registry in use, with a label of its own for Hive and a selection that is not in table order. -/
def relabelled : Registry where
  descriptors := TaskType.all.map fun t =>
    if t = .hiveCli then (Descriptor.plain t "Hive").withoutHelp else t.descriptor
  selectable := [.hiveCli, .flinkStream, .shell]

theorem check_relabelled :
    relabelled.check = .ok () ∧
      (∃ d, relabelled.describe? .hiveCli = some d ∧ d.taskType = .hiveCli) ∧
      List.Forall₂ (fun d t => relabelled.describe? t = some d ∧ d.taskType = t)
        relabelled.selected [.hiveCli, .flinkStream, .shell] := by
  have hcheck : relabelled.check = .ok () := by rfl
  obtain ⟨-, hfound⟩ := check_succeeds_iff relabelled
  obtain ⟨hdescribe, hselected⟩ := hfound hcheck
  obtain ⟨d, -, htype, -, hd, -⟩ := hdescribe .hiveCli
  exact ⟨hcheck, ⟨d, hd, htype⟩, hselected⟩

end Registry

end TaskFlow
