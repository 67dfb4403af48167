import Mathlib.Data.List.Nodup
import Mathlib.Data.List.Perm.Basic
import TaskFlow.Json.Basic

/-! # Members of an object

An object is told by its keys and by what stands under each of them: there is one object that has
certain keys, none of them twice, with certain values under them (`eq_obj_iff`). -/

namespace TaskFlow.Json

variable {α : Type} {v : Json} {members es : List (String × Json)}

/-! ### Entries by key -/

theorem lookup_eq_some_iff_mem {entries : List (String × α)} {name : String} {a : α}
    (hnodup : (entries.map Prod.fst).Nodup) :
    entries.lookup name = some a ↔ (name, a) ∈ entries := by
  induction entries with
  | nil => simp
  | cons e entries ih =>
      obtain ⟨key, b⟩ := e
      rw [List.map_cons, List.nodup_cons] at hnodup
      by_cases hkey : name = key
      · subst hkey
        have hmem : (name, a) ∉ entries := fun h => hnodup.1 (List.mem_map.2 ⟨_, h, rfl⟩)
        simp [hmem, eq_comm]
      · rw [List.lookup_cons, beq_eq_false_iff_ne.2 hkey, ih hnodup.2]
        simp [hkey]

theorem lookup_eq_of_perm {entries entries' : List (String × α)}
    (hnodup : (entries.map Prod.fst).Nodup) (h : entries.Perm entries') (name : String) :
    entries.lookup name = entries'.lookup name := by
  refine Option.ext fun a => ?_
  rw [lookup_eq_some_iff_mem hnodup, lookup_eq_some_iff_mem ((h.map Prod.fst).nodup_iff.1 hnodup)]
  exact h.mem_iff

/-! ### Objects -/

/-- The keys of an object in the order in which they are written.  Other values have none. -/
def keys : Json → List String
  | .obj members => members.map Prod.fst
  | _ => []

/-- What stands under a key of an object. -/
def get? (key : String) : Json → Option Json
  | .obj members => members.lookup key
  | _ => none

/-- The values under the keys of an object tell its members. -/
theorem members_eq_of_lookup (hnd : (es.map Prod.fst).Nodup)
    (hkeys : members.map Prod.fst = es.map Prod.fst)
    (h : ∀ e ∈ es, members.lookup e.1 = some e.2) : members = es := by
  induction es generalizing members with
  | nil => exact List.map_eq_nil_iff.1 hkeys
  | cons e es ih =>
      obtain ⟨m, ms, rfl, hkey, hkeys⟩ := List.map_eq_cons_iff.1 hkeys
      obtain ⟨hfresh, hnd⟩ := List.nodup_cons.1 hnd
      obtain ⟨he, hes⟩ := List.forall_mem_cons.1 h
      rw [List.lookup_cons, ← hkey, beq_self_eq_true, Option.some.injEq] at he
      rw [Prod.ext hkey he, ih hnd hkeys fun e' he' => ?_]
      have hne : e'.1 ≠ m.1 := fun heq => hfresh (hkey ▸ heq ▸ List.mem_map_of_mem he')
      have hlookup := hes e' he'
      rwa [List.lookup_cons, beq_false_of_ne hne] at hlookup

/-- The object with these members is the only value with their keys and their values under them. -/
theorem eq_obj_iff (hne : members ≠ []) (hnd : (obj members).keys.Nodup) :
    v = .obj members ↔
      v.keys = (obj members).keys ∧ ∀ m ∈ members, v.get? m.1 = some m.2 := by
  constructor
  · rintro rfl
    exact ⟨rfl, fun m hm => (lookup_eq_some_iff_mem hnd).2 hm⟩
  · rintro ⟨hkeys, hvalues⟩
    cases v with
    | obj ms => rw [members_eq_of_lookup hnd hkeys hvalues]
    | _ => exact absurd (List.map_eq_nil_iff.1 hkeys.symm) hne

end TaskFlow.Json
