import Mathlib.Data.String.Basic
import TaskFlow.Proofs.Definition.Format

/-! # How long a text is

A text is no shorter than the tokens that it spells, and a document has no fewer tokens than each of
its parts.  So a text that is read as a definition has a byte for each of its tasks
(`Definition.length_tasks_le`). -/

namespace TaskFlow

namespace Json

/-! ### Texts and tokens -/

theorem Token.Spelled.length_le {ts : List Token} {cs : List Char} (h : Token.Spelled ts cs) :
    ts.length ≤ cs.length := by
  induction h with
  | nil => exact Nat.zero_le _
  | cons hs hw _ ih =>
      obtain ⟨c, w, rfl, -⟩ := hw.head
      rw [List.length_append, List.length_append, List.length_cons, List.length_cons]
      omega

theorem length_le_utf8Len (cs : List Char) : cs.length ≤ String.utf8Len cs := by
  induction cs with
  | nil => exact Nat.zero_le _
  | cons c cs ih =>
      have hpos := c.utf8Size_pos
      rw [List.length_cons, String.utf8Len_cons]
      omega

theorem length_le_size_toUTF8 (text : String) : text.toList.length ≤ text.toUTF8.size := by
  rw [String.toUTF8_eq_toByteArray, String.size_toByteArray]
  conv_rhs => rw [← String.ofList_toList (s := text)]
  rw [String.utf8ByteSize_ofList]
  exact length_le_utf8Len _

/-! ### Documents and their parts -/

namespace Doc

theorem length_tokens_pos (d : Doc) : 0 < d.tokens.length := by
  cases d <;> simp [tokens]

theorem length_le_commas {us : List Token} {tss : List (List Token)} (h : us ∈ tss) :
    us.length ≤ (commas tss).length := by
  induction tss with
  | nil => cases h
  | cons vs tss ih =>
      cases tss with
      | nil => rw [commas_singleton, List.mem_singleton.1 h]
      | cons ws tss =>
          rw [commas_cons_cons, List.length_append, List.length_cons]
          rcases List.mem_cons.1 h with rfl | h
          · exact Nat.le_add_right _ _
          · exact (ih h).trans (by omega)

theorem count_le_commas {tss : List (List Token)} (h : ∀ us ∈ tss, 0 < us.length) :
    tss.length ≤ (commas tss).length := by
  induction tss with
  | nil => exact Nat.zero_le _
  | cons us tss ih =>
      obtain ⟨hus, htss⟩ := List.forall_mem_cons.1 h
      cases tss with
      | nil =>
          rw [commas_singleton]
          exact hus
      | cons vs tss =>
          have hrest := ih htss
          rw [commas_cons_cons]
          simp only [List.length_append, List.length_cons] at hrest ⊢
          omega

variable {items : List Doc} {members : List (List Piece × Doc)} {ending : Ending}

theorem length_items_le : items.length ≤ (arr items ending).tokens.length := by
  have hle : (items.map tokens).length ≤ (commas (items.map tokens)).length := by
    refine count_le_commas fun us hus => ?_
    obtain ⟨d, -, rfl⟩ := List.mem_map.1 hus
    exact d.length_tokens_pos
  rw [List.length_map] at hle
  rw [tokens, itemTokens_eq_map, List.length_cons, List.length_append]
  omega

theorem length_tokens_le_of_mem_items {d : Doc} (h : d ∈ items) :
    d.tokens.length ≤ (arr items ending).tokens.length := by
  have hle := length_le_commas (List.mem_map_of_mem (f := tokens) h)
  rw [tokens, itemTokens_eq_map, List.length_cons, List.length_append]
  omega

theorem length_tokens_le_of_mem_members {m : List Piece × Doc} (h : m ∈ members) :
    m.2.tokens.length ≤ (obj members ending).tokens.length := by
  have hmem : .str m.1 :: .colon :: m.2.tokens ∈ memberTokens members := by
    rw [memberTokens_eq_map]
    exact List.mem_map_of_mem h
  have hle := length_le_commas hmem
  rw [List.length_cons, List.length_cons] at hle
  rw [tokens, List.length_cons, List.length_append]
  omega

end Doc

/-- What a document supplies for a field has no more tokens than the document. -/
theorem Supplies.length_tokens_le {names : List String} {doc : Doc} {given : List (Option Doc)}
    (h : Supplies names doc given) :
    ∀ o ∈ given, ∀ d ∈ o, d.tokens.length ≤ doc.tokens.length := by
  intro o ho d hd
  cases h with
  | @obj members entries given hkeys hvalues _ =>
      obtain ⟨name, -, hname⟩ := exists_mem_of_forall₂ hvalues.flip ho
      have hmem : d ∈ valuesOf name entries := by
        rw [hname, Option.mem_toList]
        exact hd
      obtain ⟨e, he, hvalue⟩ := List.mem_filterMap.1 hmem
      obtain ⟨m, hm, -, heq⟩ := exists_mem_of_forall₂ hkeys.flip he
      split at hvalue
      · cases hvalue
        rw [← heq]
        exact Doc.length_tokens_le_of_mem_members hm
      · cases hvalue
  | @arr items omitted =>
      rcases List.mem_append.1 ho with ho | ho
      · obtain ⟨d', hd', rfl⟩ := List.mem_map.1 ho
        cases hd
        exact Doc.length_tokens_le_of_mem_items hd'
      · rw [List.eq_of_mem_replicate ho] at hd
        cases hd

theorem IsList.length_le {α : Type} {R : Doc → α → Prop} {doc : Doc} {as : List α}
    (h : IsList R doc as) : as.length ≤ doc.tokens.length := by
  cases h with
  | arr has =>
      rw [← has.length_eq]
      exact Doc.length_items_le

end Json

namespace Definition

theorem Written.length_tasks_le {doc : Json.Doc} {d : Definition} (h : Written doc d) :
    d.tasks.length ≤ doc.tokens.length := by
  obtain ⟨hsupplies, -, htasks, -⟩ := h
  cases hd : d.tasks with
  | nil => exact Nat.zero_le _
  | cons t ts =>
      rw [hd] at htasks
      cases htasks with
      | given hlist =>
          refine hlist.length_le.trans (hsupplies.length_tokens_le _ ?_ _ rfl)
          exact List.mem_cons_of_mem _ List.mem_cons_self

/-- A text that is read as a definition has a byte for each task. -/
theorem length_tasks_le {text : String} {d : Definition} (h : decoder.ofText text = .ok d) :
    d.tasks.length ≤ text.toUTF8.size := by
  obtain ⟨doc, hspelled, hwritten⟩ := (decoder_reads.ofText_eq_ok_iff text d).1 h
  exact hwritten.length_tasks_le.trans
    (hspelled.length_le.trans (Json.length_le_size_toUTF8 text))

end Definition

end TaskFlow
