import Mathlib.Data.List.Nodup
import TaskFlow.Proofs.Settings.DocsBase

/-! # Addresses of help pages

The address of a help page tells the task type and the base, up to slashes at the end of the base: the
name of the page holds no slash, so that it begins behind the last one (`slash_not_mem_slug`), and the
names differ (`slug_injective`).  Slashes are removed from a base when the settings are made and once
more when an address is; the second time changes nothing (`helpLink_eq_iff`). -/

namespace TaskFlow

variable {d e : Descriptor} {u w : String} {s t : TaskType}

/-! ### Names of pages -/

theorem slug_injective : Function.Injective TaskType.slug := by
  intro s t h
  have hnodup : (TaskType.all.map TaskType.slug).Nodup := by decide
  exact List.inj_on_of_nodup_map hnodup (TaskType.mem_all s) (TaskType.mem_all t) h

theorem slash_not_mem_slug (t : TaskType) : '/' ∉ t.slug.toList := by
  cases t <;> decide

/-! ### The last slash -/

theorem eq_nil_of_cons_eq {α : Type} {a : α} {cs ys zs : List α} (h : a :: ys = cs ++ a :: zs)
    (hy : a ∉ ys) : cs = [] := by
  cases cs with
  | nil => rfl
  | cons c cs =>
      rw [(List.cons.inj h).2] at hy
      exact absurd (List.mem_append_right cs List.mem_cons_self) hy

/-- What stands behind the last separator, and what stands before it, are told by the whole. -/
theorem append_cons_inj {α : Type} {a : α} {xs xs' ys ys' : List α} (hy : a ∉ ys) (hy' : a ∉ ys')
    (h : xs ++ a :: ys = xs' ++ a :: ys') : xs = xs' ∧ ys = ys' := by
  rcases List.append_eq_append_iff.1 h with ⟨cs, hxs, hrest⟩ | ⟨cs, hxs, hrest⟩
  · obtain rfl := eq_nil_of_cons_eq hrest hy
    exact ⟨by rw [hxs, List.append_nil], (List.cons.inj hrest).2⟩
  · obtain rfl := eq_nil_of_cons_eq hrest hy'
    exact ⟨by rw [hxs, List.append_nil], (List.cons.inj hrest).2.symm⟩

/-! ### Addresses -/

theorem address_inj (h : u ++ "/guide/task/" ++ s.slug ++ ".html" =
    w ++ "/guide/task/" ++ t.slug ++ ".html") : u = w ∧ s = t := by
  have hsplit : "/guide/task/".toList = "/guide/task".toList ++ ['/'] := by decide
  have hlist := congrArg String.toList h
  simp only [String.toList_append, hsplit] at hlist
  have hfront := List.append_cancel_right hlist
  rw [← List.append_assoc, ← List.append_assoc, List.append_assoc, List.append_assoc _ ['/']] at hfront
  obtain ⟨hbase, hslug⟩ := append_cons_inj (slash_not_mem_slug s) (slash_not_mem_slug t) hfront
  exact ⟨String.toList_inj.1 (List.append_cancel_right hbase),
    slug_injective (String.toList_inj.1 hslug)⟩

theorem helpLink_of_enabled (h : d.helpDisabled = false) (base : String) :
    d.helpLink base =
      some (trimSlashes base ++ "/guide/task/" ++ d.taskType.slug ++ ".html") := by
  rw [Descriptor.helpLink, h]
  rfl

theorem helpLink_eq_none_iff : d.helpLink u = none ↔ d.helpDisabled = true := by
  rw [Descriptor.helpLink]
  split <;> simp_all

/-- Slashes at the end of the base do not matter. -/
theorem helpLink_trimSlashes (d : Descriptor) (base : String) :
    d.helpLink (trimSlashes base) = d.helpLink base := by
  rw [Descriptor.helpLink, Descriptor.helpLink, trimSlashes_eq_self (getLast?_trimSlashes base)]

/-- **What the address of a help page tells.**  There is none exactly if help is suppressed.  Two
addresses are equal exactly if their task types are, and their bases up to slashes at the end.  The
settings keep of a base what matters for addresses, provided that it does not consist of blanks and
slashes only. -/
theorem helpLink_eq_iff (d e : Descriptor) (u w : String) (format : OutputFormat) :
    (d.helpLink u = none ↔ d.helpDisabled = true) ∧
      (d.helpDisabled = false → e.helpDisabled = false →
        (d.helpLink u = e.helpLink w ↔
          d.taskType = e.taskType ∧ trimSlashes u = trimSlashes w)) ∧
      ((∃ c ∈ (trimBlanks u).toList, c ≠ '/') →
        d.helpLink (Settings.ofOptions (some u) format).docsBase = d.helpLink (trimBlanks u)) := by
  refine ⟨helpLink_eq_none_iff, fun hd he => ?_, fun ⟨c, hc, hne⟩ => ?_⟩
  · rw [helpLink_of_enabled hd, helpLink_of_enabled he, Option.some.injEq]
    constructor
    · intro h
      obtain ⟨hbase, htype⟩ := address_inj h
      exact ⟨htype, hbase⟩
    · rintro ⟨htype, hbase⟩
      rw [htype, hbase]
  · have hkept : trimSlashes (trimBlanks u) ≠ "" := fun h =>
      hne (trimSlashes_eq_empty_iff.1 h c hc)
    rw [docsBase_ofOptions, resolveDocsBase_some, if_neg hkept, helpLink_trimSlashes]

theorem helpLink_sql_apart :
    let sql := TaskType.sql.descriptor
    let given := " https://docs.example/sql// "
    sql.helpLink "https://docs.example/sql//" = sql.helpLink "https://docs.example/sql" ∧
      sql.helpLink given ≠ TaskType.spark.descriptor.helpLink given ∧
      sql.helpLink (Settings.ofOptions (some given) .text).docsBase =
        sql.helpLink (trimBlanks given) := by
  intro sql given
  obtain ⟨-, hsame, -⟩ :=
    helpLink_eq_iff sql sql "https://docs.example/sql//" "https://docs.example/sql" .text
  obtain ⟨-, hother, hgiven⟩ := helpLink_eq_iff sql TaskType.spark.descriptor given given .text
  refine ⟨(hsame rfl rfl).2 ⟨rfl, by decide⟩, fun h => ?_, hgiven ⟨'h', by decide, by decide⟩⟩
  exact absurd ((hother rfl rfl).1 h).1 (by decide)

end TaskFlow
