import Mathlib.Logic.Function.Iterate
import TaskFlow.Proofs.Text.Trimming
import TaskFlow.Settings

/-! # Bases of the documentation

A base that has been resolved is not empty, does not end with a slash and does not begin with a blank
(`ResolvedBase`).  It may end with a blank, which stood before the slashes at the end of the text; then
it is not in normal form (`NormalBase`).  The bases in normal form are those that resolving leaves as
they are, and resolving again and again leads to one of them (`resolved_base_normal_iff`). -/

namespace TaskFlow

variable {base raw : String}

/-- The text without blanks at its ends. -/
def trimBlanks (raw : String) : String :=
  String.ofList (Text.trimBlank raw.toList)

/-- The base is not empty, does not end with a slash and does not begin with a blank. -/
structure ResolvedBase (base : String) : Prop where
  nonempty : base ≠ ""
  noSlash : base.toList.getLast? ≠ some '/'
  noBlankFirst : ∀ c ∈ base.toList.head?, Text.isBlank c = false

/-- Nor does the base end with a blank. -/
structure NormalBase (base : String) : Prop extends ResolvedBase base where
  noBlankLast : ∀ c ∈ base.toList.getLast?, Text.isBlank c = false

/-- Without the blanks at its ends the text ends with slashes, and with a blank before them. -/
def BlankBeforeSlashes (raw : String) : Prop :=
  ∃ front c slashes, (trimBlanks raw).toList = front ++ c :: slashes ∧ Text.isBlank c = true ∧
    ∀ x ∈ slashes, x = '/'

/-! ### Without slashes at the end -/

theorem toList_trimSlashes (base : String) :
    (trimSlashes base).toList = Text.trimEnd (· == '/') base.toList :=
  String.toList_ofList

theorem trimSlashes_eq_self (h : base.toList.getLast? ≠ some '/') : trimSlashes base = base := by
  have hself : Text.trimEnd (· == '/') base.toList = base.toList := by
    rw [Text.trimEnd_eq_self_iff]
    rintro c hc
    rw [beq_eq_false_iff_ne]
    rintro rfl
    exact h hc
  rw [trimSlashes, hself, String.ofList_toList]

theorem getLast?_trimSlashes (base : String) : (trimSlashes base).toList.getLast? ≠ some '/' := by
  intro h
  rw [toList_trimSlashes] at h
  exact Bool.noConfusion (Text.eq_false_of_getLast?_trimEnd h)

theorem trimSlashes_eq_empty_iff : trimSlashes base = "" ↔ ∀ c ∈ base.toList, c = '/' := by
  rw [← String.toList_inj, toList_trimSlashes, String.toList_empty, Text.trimEnd_eq_nil_iff]
  simp only [beq_iff_eq]

/-! ### Without blanks at the ends -/

theorem toList_trimBlanks (raw : String) : (trimBlanks raw).toList = Text.trimBlank raw.toList :=
  String.toList_ofList

theorem trimBlanks_eq_self (h : NormalBase base) : trimBlanks base = base := by
  rw [trimBlanks, Text.trimBlank_eq_self_iff.2 ⟨h.noBlankFirst, h.noBlankLast⟩, String.ofList_toList]

/-- A blank before the slashes at the end is the last character without the slashes. -/
theorem blankBeforeSlashes_iff :
    BlankBeforeSlashes raw ↔
      ∃ c ∈ (trimSlashes (trimBlanks raw)).toList.getLast?, Text.isBlank c = true := by
  rw [toList_trimSlashes]
  constructor
  · rintro ⟨front, c, slashes, hsplit, hc, hslashes⟩
    refine ⟨c, ?_, hc⟩
    have hne : c ≠ '/' := by
      rintro rfl
      exact Bool.noConfusion hc
    have hkept : Text.trimEnd (· == '/') (front ++ [c]) = front ++ [c] := by
      rw [Text.trimEnd_eq_self_iff, List.getLast?_concat]
      rintro _ ⟨⟩
      exact beq_eq_false_iff_ne.2 hne
    rw [hsplit, List.append_cons, Text.trimEnd_append fun x hx => beq_iff_eq.2 (hslashes x hx), hkept]
    exact List.getLast?_concat
  · rintro ⟨c, hlast, hc⟩
    obtain ⟨slashes, hslashes, hall⟩ := Text.exists_eq_trimEnd_append (· == '/') (trimBlanks raw).toList
    obtain ⟨front, hfront⟩ := List.getLast?_eq_some_iff.1 hlast
    refine ⟨front, c, slashes, ?_, hc, fun x hx => eq_of_beq (hall x hx)⟩
    rw [hslashes, hfront, List.append_assoc, List.singleton_append]

/-! ### Resolved bases -/

theorem resolveDocsBase_some (raw : String) :
    resolveDocsBase (some raw) = if trimSlashes (trimBlanks raw) = "" then defaultDocsBase
      else trimSlashes (trimBlanks raw) :=
  rfl

theorem head?_defaultDocsBase : defaultDocsBase.toList.head? = some 'h' := by
  rfl

theorem getLast?_defaultDocsBase : defaultDocsBase.toList.getLast? = some 't' := by
  rfl

theorem normalBase_default : NormalBase defaultDocsBase where
  nonempty := by decide
  noSlash := by
    rw [getLast?_defaultDocsBase]
    decide
  noBlankFirst := by
    rw [head?_defaultDocsBase]
    rintro _ ⟨⟩
    decide
  noBlankLast := by
    rw [getLast?_defaultDocsBase]
    rintro _ ⟨⟩
    decide

theorem resolvedBase_trimSlashes (h : trimSlashes (trimBlanks raw) ≠ "") :
    ResolvedBase (trimSlashes (trimBlanks raw)) where
  nonempty := h
  noSlash := getLast?_trimSlashes _
  noBlankFirst c hc := by
    rw [toList_trimSlashes, toList_trimBlanks] at hc
    exact Text.eq_false_of_head?_trimBlank (Text.head?_of_head?_trimEnd hc)

theorem resolvedBase_resolveDocsBase (base : Option String) : ResolvedBase (resolveDocsBase base) := by
  cases base with
  | none => exact normalBase_default.toResolvedBase
  | some raw =>
      rw [resolveDocsBase_some]
      split
      · exact normalBase_default.toResolvedBase
      · rename_i h
        exact resolvedBase_trimSlashes h

/-- Which texts are resolved to a base in normal form. -/
theorem normalBase_resolveDocsBase_iff :
    NormalBase (resolveDocsBase (some raw)) ↔ ¬ BlankBeforeSlashes raw := by
  rw [resolveDocsBase_some, blankBeforeSlashes_iff]
  split
  · rename_i h
    rw [h]
    exact iff_of_true normalBase_default (by simp)
  · rename_i h
    constructor
    · rintro hnormal ⟨c, hc, hblank⟩
      rw [hnormal.noBlankLast c hc] at hblank
      cases hblank
    · intro hnone
      refine ⟨resolvedBase_trimSlashes h, fun c hc => ?_⟩
      rw [← Bool.not_eq_true]
      exact fun hblank => hnone ⟨c, hc, hblank⟩

/-! ### Resolving again -/

theorem resolveDocsBase_eq_self (h : NormalBase base) : resolveDocsBase (some base) = base := by
  rw [resolveDocsBase_some, trimBlanks_eq_self h, trimSlashes_eq_self h.noSlash, if_neg h.nonempty]

/-- Unless the default takes its place, what is resolved is a part of the text. -/
theorem eq_default_or_sublist (raw : String) :
    resolveDocsBase (some raw) = defaultDocsBase ∨
      (resolveDocsBase (some raw)).toList.Sublist (trimBlanks raw).toList := by
  rw [resolveDocsBase_some]
  split
  · exact .inl rfl
  · rw [toList_trimSlashes]
    exact .inr (Text.trimEnd_sublist _ _)

theorem trimBlanks_sublist (raw : String) : (trimBlanks raw).toList.Sublist raw.toList := by
  rw [toList_trimBlanks]
  exact Text.trimBlank_sublist _

theorem normalBase_of_eq_self (h : resolveDocsBase (some base) = base) : NormalBase base := by
  rcases eq_default_or_sublist base with hdefault | hsub
  · rw [← h, hdefault]
    exact normalBase_default
  · rw [h] at hsub
    have hself : (trimBlanks base).toList = base.toList :=
      (trimBlanks_sublist base).antisymm hsub
    refine ⟨h ▸ resolvedBase_resolveDocsBase (some base), ?_⟩
    rw [toList_trimBlanks] at hself
    exact (Text.trimBlank_eq_self_iff.1 hself).2

theorem resolveDocsBase_eq_self_iff : resolveDocsBase (some base) = base ↔ NormalBase base :=
  ⟨normalBase_of_eq_self, resolveDocsBase_eq_self⟩

/-- A base that is not in normal form is resolved to one that is or to a shorter one. -/
theorem normalBase_or_length_lt (h : ¬ NormalBase base) :
    NormalBase (resolveDocsBase (some base)) ∨
      (resolveDocsBase (some base)).toList.length < base.toList.length := by
  rcases eq_default_or_sublist base with hdefault | hsub
  · rw [hdefault]
    exact .inl normalBase_default
  · refine .inr (lt_of_not_ge fun hle => h (normalBase_of_eq_self ?_))
    have hsub := hsub.trans (trimBlanks_sublist base)
    exact String.toList_inj.1 (hsub.eq_of_length_le hle)

theorem iterate_eq_self (h : NormalBase base) (n : Nat) :
    (fun s => resolveDocsBase (some s))^[n] base = base := by
  induction n with
  | zero => rfl
  | succ n ih => rw [Function.iterate_succ_apply, resolveDocsBase_eq_self h, ih]

/-- Resolving as often as a base has characters leads to one in normal form. -/
theorem normalBase_iterate {n : Nat} (h : ResolvedBase base) (hn : base.toList.length ≤ n) :
    NormalBase ((fun s => resolveDocsBase (some s))^[n] base) := by
  induction n generalizing base with
  | zero =>
      have hnil : base.toList = [] := List.length_eq_zero_iff.1 (Nat.le_zero.1 hn)
      exact absurd (String.toList_eq_nil_iff.1 hnil) h.nonempty
  | succ n ih =>
      by_cases hnormal : NormalBase base
      · rwa [iterate_eq_self hnormal]
      · rw [Function.iterate_succ_apply]
        rcases normalBase_or_length_lt hnormal with hnext | hlt
        · rwa [iterate_eq_self hnext]
        · exact ih (resolvedBase_resolveDocsBase (some base)) (by omega)

@[simp]
theorem docsBase_ofOptions (base : Option String) (format : OutputFormat) :
    (Settings.ofOptions base format).docsBase = resolveDocsBase base :=
  rfl

/-- **Which resolved bases are in normal form.**  A resolved base is not empty, does not end with a
slash and does not begin with a blank.  It is in normal form unless the text has a blank before the
slashes at its end, and exactly then it is resolved to itself.  Resolving it as often as it has
characters gives a base in normal form in any case. -/
theorem resolved_base_normal_iff (base : Option String) (format : OutputFormat) :
    let b := (Settings.ofOptions base format).docsBase
    let again := fun s => (Settings.ofOptions (some s) format).docsBase
    ResolvedBase b ∧ (NormalBase b ↔ ¬ ∃ raw, base = some raw ∧ BlankBeforeSlashes raw) ∧
      (again b = b ↔ NormalBase b) ∧ NormalBase (again^[b.length] b) := by
  simp only [docsBase_ofOptions]
  have hresolved := resolvedBase_resolveDocsBase base
  refine ⟨hresolved, ?_, resolveDocsBase_eq_self_iff, normalBase_iterate hresolved ?_⟩
  · cases base with
    | none => exact iff_of_true normalBase_default (by simp)
    | some raw =>
        rw [normalBase_resolveDocsBase_iff]
        simp
  · rw [String.length_toList]

/-- A blank before a slash at the end is kept, until the base is resolved again. -/
theorem resolved_base_trailing_blank :
    (Settings.ofOptions (some "https://docs.example /") .json).docsBase = "https://docs.example " ∧
      ¬ NormalBase "https://docs.example " ∧
      (Settings.ofOptions (some "https://docs.example ") .json).docsBase = "https://docs.example" := by
  refine ⟨by decide, fun h => ?_, by decide⟩
  exact Bool.noConfusion (h.noBlankLast ' ' (by decide))

end TaskFlow
