import TaskFlow.Json.Doc
import TaskFlow.Proofs.Json.Token
import TaskFlow.Result

/-! # The grammar of documents

`Doc.tokens` writes a document as tokens, and `Doc.Whole` says that none of it stands for a break.
The parser returns a whole document only for the tokens that it is written with (`parse_tokens`),
and returns every whole document from its tokens (`parse_append`).  Passing over a document succeeds
exactly if it is whole (`skip_eq_ok_iff`). -/

namespace TaskFlow.Json

namespace Doc

variable {d : Doc} {frames : List Frame} {ts rest : List Token}

/-- No part of the document stands for a break. -/
inductive Whole : Doc → Prop
  | null : Whole .null
  | bool (b : Bool) : Whole (.bool b)
  | num (n : Numeral) : Whole (.num n)
  | str (pieces : List Piece) : Whole (.str pieces)
  | arr {items : List Doc} : (∀ d ∈ items, Whole d) → Whole (.arr items .closed)
  | obj {members : List (List Piece × Doc)} :
      (∀ m ∈ members, Whole m.2) → Whole (.obj members .closed)

theorem not_whole_broken (b : Break) : ¬ (broken b).Whole := by
  intro h
  cases h

theorem not_whole_arr_stopped (items : List Doc) (comma : Bool) (b : Break) :
    ¬ (arr items (.stopped comma b)).Whole := by
  intro h
  cases h

theorem not_whole_obj_stopped (members : List (List Piece × Doc)) (comma : Bool) (b : Break) :
    ¬ (obj members (.stopped comma b)).Whole := by
  intro h
  cases h

theorem whole_arr_iff {items : List Doc} {ending : Ending} :
    (arr items ending).Whole ↔ (∀ d ∈ items, d.Whole) ∧ ending = .closed := by
  constructor
  · intro h
    cases h with
    | arr h => exact ⟨h, rfl⟩
  · intro h
    rw [h.2]
    exact .arr h.1

theorem whole_obj_iff {members : List (List Piece × Doc)} {ending : Ending} :
    (obj members ending).Whole ↔ (∀ m ∈ members, m.2.Whole) ∧ ending = .closed := by
  constructor
  · intro h
    cases h with
    | obj h => exact ⟨h, rfl⟩
  · intro h
    rw [h.2]
    exact .obj h.1

/-! ### Tokens -/

/-- Token sequences with a comma between any two. -/
def commas (tss : List (List Token)) : List Token :=
  List.intercalate [.comma] tss

/-- The closing bracket, or the break in its place. -/
def closing (bracket : Token) : Ending → Token
  | .closed => bracket
  | .stopped _ b => .broken b

mutual

/-- The tokens of a document; a break stands for what is left out. -/
def tokens : Doc → List Token
  | .null => [.null]
  | .bool b => [.bool b]
  | .num n => [.num n]
  | .str pieces => [.str pieces]
  | .arr items ending => .openArr :: (commas (itemTokens items) ++ [closing .closeArr ending])
  | .obj members ending => .openObj :: (commas (memberTokens members) ++ [closing .closeObj ending])
  | .broken b => [.broken b]

/-- The tokens of each item of an array. -/
def itemTokens : List Doc → List (List Token)
  | [] => []
  | d :: ds => tokens d :: itemTokens ds

/-- The tokens of each member of an object: the key, a colon and the value. -/
def memberTokens : List (List Piece × Doc) → List (List Token)
  | [] => []
  | (k, d) :: ms => (.str k :: .colon :: tokens d) :: memberTokens ms

end

theorem itemTokens_eq_map (items : List Doc) : itemTokens items = items.map tokens := by
  induction items with
  | nil => rfl
  | cons d ds ih => rw [itemTokens, ih, List.map_cons]

theorem memberTokens_eq_map (members : List (List Piece × Doc)) :
    memberTokens members = members.map fun m => .str m.1 :: .colon :: m.2.tokens := by
  induction members with
  | nil => rfl
  | cons m ms ih => rw [memberTokens, ih, List.map_cons]

theorem commas_cons_cons (us vs : List Token) (tss : List (List Token)) :
    commas (us :: vs :: tss) = us ++ .comma :: commas (vs :: tss) := by
  rw [commas, List.intercalate_cons_cons, List.append_assoc]
  rfl

theorem commas_singleton (us : List Token) : commas [us] = us :=
  List.intercalate_singleton

theorem exists_commas_cons (us : List Token) (tss : List (List Token)) :
    ∃ vs, commas (us :: tss) = us ++ vs := by
  cases tss with
  | nil => exact ⟨[], by rw [commas_singleton, List.append_nil]⟩
  | cons => exact ⟨_, commas_cons_cons ..⟩

theorem commas_append_singleton (tss : List (List Token)) (us : List Token) :
    commas (tss ++ [us]) = tss.flatMap (· ++ [.comma]) ++ us := by
  induction tss with
  | nil => exact commas_singleton us
  | cons vs tss ih =>
      have hcons : commas (vs :: (tss ++ [us])) = vs ++ .comma :: commas (tss ++ [us]) := by
        cases tss with
        | nil => exact commas_cons_cons ..
        | cons => exact commas_cons_cons ..
      rw [List.cons_append, hcons, ih]
      simp

theorem mem_commas {t : Token} {tss : List (List Token)} (h : t ∈ commas tss) :
    t = .comma ∨ ∃ us ∈ tss, t ∈ us := by
  induction tss with
  | nil => cases h
  | cons us tss ih =>
      cases tss with
      | nil =>
          rw [commas_singleton] at h
          exact .inr ⟨us, List.mem_cons_self, h⟩
      | cons vs tss =>
          rw [commas_cons_cons, List.mem_append, List.mem_cons] at h
          rcases h with h | h | h
          · exact .inr ⟨us, List.mem_cons_self, h⟩
          · exact .inl h
          · rcases ih h with h | ⟨us', hmem, h⟩
            · exact .inl h
            · exact .inr ⟨us', List.mem_cons_of_mem _ hmem, h⟩

theorem broken_not_mem_bracketed {b : Break} {first last : Token} {tss : List (List Token)}
    (hfirst : Token.broken b ≠ first) (hlast : Token.broken b ≠ last)
    (h : ∀ us ∈ tss, Token.broken b ∉ us) :
    Token.broken b ∉ first :: (commas tss ++ [last]) := by
  intro hmem
  rcases List.mem_append.1 (List.mem_of_ne_of_mem hfirst hmem) with hmem | hmem
  · rcases mem_commas hmem with heq | ⟨us, hus, hmem⟩
    · cases heq
    · exact h us hus hmem
  · exact hlast (List.mem_singleton.1 hmem)

/-- A whole document is written without a break. -/
theorem Whole.broken_not_mem (h : d.Whole) (b : Break) : Token.broken b ∉ d.tokens := by
  induction h with
  | arr _ ih =>
      rw [tokens, itemTokens_eq_map, closing]
      refine broken_not_mem_bracketed (by simp) (by simp) ?_
      intro us hus
      obtain ⟨d, hd, rfl⟩ := List.mem_map.1 hus
      exact ih d hd
  | obj _ ih =>
      rw [tokens, memberTokens_eq_map, closing]
      refine broken_not_mem_bracketed (by simp) (by simp) ?_
      intro us hus hmem
      obtain ⟨m, hm, rfl⟩ := List.mem_map.1 hus
      have hvalue := List.mem_of_ne_of_mem (by simp) (List.mem_of_ne_of_mem (by simp) hmem)
      exact ih m hm hvalue
  | _ => simp [tokens]

/-! ### Numbers stay apart -/

/-- What may follow a number: tokens that begin with no number and are separated themselves. -/
def AfterNum (ts : List Token) : Prop :=
  (∀ t ∈ ts.head?, ¬ t.IsNum) ∧ Token.Separated ts

theorem separated_cons {t : Token} (ht : ¬ t.IsNum) :
    Token.Separated (t :: ts) ↔ Token.Separated ts := by
  unfold Token.Separated
  rw [List.isChain_cons]
  constructor
  · exact And.right
  · intro h
    exact ⟨fun u _ hu => ht hu.1, h⟩

theorem afterNum_cons {t : Token} (ht : ¬ t.IsNum) (hts : Token.Separated ts) :
    AfterNum (t :: ts) :=
  ⟨fun u hu => by cases hu; exact ht, (separated_cons ht).2 hts⟩

theorem separated_commas {tss : List (List Token)}
    (h : ∀ us ∈ tss, ∀ ts, AfterNum ts → Token.Separated (us ++ ts)) (hts : AfterNum ts) :
    Token.Separated (commas tss ++ ts) := by
  induction tss with
  | nil => exact hts.2
  | cons us tss ih =>
      have hus := h us List.mem_cons_self
      have ih := ih fun us' hmem => h us' (List.mem_cons_of_mem _ hmem)
      cases tss with
      | nil =>
          rw [commas_singleton]
          exact hus ts hts
      | cons vs tss =>
          rw [commas_cons_cons, List.append_assoc, List.cons_append]
          exact hus _ (afterNum_cons (by simp [Token.IsNum]) ih)

theorem separated_bracketed {first last : Token} {tss : List (List Token)}
    (hfirst : ¬ first.IsNum) (hlast : ¬ last.IsNum)
    (h : ∀ us ∈ tss, ∀ ts, AfterNum ts → Token.Separated (us ++ ts)) (hts : AfterNum ts) :
    Token.Separated (first :: (commas tss ++ [last]) ++ ts) := by
  rw [List.cons_append, List.append_assoc, separated_cons hfirst]
  exact separated_commas h (afterNum_cons hlast hts.2)

/-- In the tokens of a document no two numbers follow one another, nor does one follow the last. -/
theorem Whole.separated_append (h : d.Whole) (hts : AfterNum ts) :
    Token.Separated (d.tokens ++ ts) := by
  induction h generalizing ts with
  | num n =>
      refine List.isChain_cons.2 ⟨?_, hts.2⟩
      intro t ht hnum
      exact hts.1 t ht hnum.2
  | arr _ ih =>
      rw [tokens, itemTokens_eq_map, closing]
      refine separated_bracketed (by simp [Token.IsNum]) (by simp [Token.IsNum]) ?_ hts
      intro us hus ts hts
      obtain ⟨d, hd, rfl⟩ := List.mem_map.1 hus
      exact ih d hd hts
  | obj _ ih =>
      rw [tokens, memberTokens_eq_map, closing]
      refine separated_bracketed (by simp [Token.IsNum]) (by simp [Token.IsNum]) ?_ hts
      intro us hus ts hts
      obtain ⟨m, hm, rfl⟩ := List.mem_map.1 hus
      rw [List.cons_append, List.cons_append, separated_cons (by simp [Token.IsNum]),
        separated_cons (by simp [Token.IsNum])]
      exact ih m hm hts
  | _ => exact (separated_cons (by simp [Token.IsNum])).2 hts.2

theorem Whole.separated (h : d.Whole) : Token.Separated d.tokens := by
  have hnil : AfterNum [] := by
    refine ⟨fun t ht => ?_, List.isChain_nil⟩
    cases ht
  have hsep := h.separated_append hnil
  rwa [List.append_nil] at hsep

/-! ### What the parser returns -/

/-- The tokens of the open arrays and objects, up to the value that is due. -/
def opened : List Frame → List Token
  | [] => []
  | .arr items :: frames =>
    opened frames ++ .openArr :: items.reverse.flatMap (·.tokens ++ [.comma])
  | .obj members key :: frames =>
    opened frames ++ .openObj :: (openedMembers members ++ [.str key, .colon])
where
  openedMembers (members : List (List Piece × Doc)) : List Token :=
    members.reverse.flatMap fun m => (.str m.1 :: .colon :: m.2.tokens) ++ [.comma]

/-- If the document of the result is whole, then it and the rest account for the tokens. -/
def Accounts (ts : List Token) (result : Doc × List Token) : Prop :=
  result.1.Whole → ts = result.1.tokens ++ result.2

theorem not_whole_cut (h : ¬ d.Whole) : ¬ (cut d frames).Whole := by
  induction frames generalizing d with
  | nil => exact h
  | cons frame frames ih =>
      cases frame with
      | arr items => exact ih (not_whole_arr_stopped _ _ _)
      | obj members key => exact ih (not_whole_obj_stopped _ _ _)

theorem accounts_cut (h : ¬ d.Whole) : Accounts ts (cut d frames, rest) :=
  fun hcut => absurd hcut (not_whole_cut h)

theorem tokens_arr_closed (items : List Doc) :
    (arr (d :: items).reverse .closed).tokens =
      .openArr :: (items.reverse.flatMap (·.tokens ++ [.comma]) ++ d.tokens ++ [.closeArr]) := by
  rw [tokens, itemTokens_eq_map, List.reverse_cons, List.map_append, List.map_singleton,
    commas_append_singleton, List.flatMap_map]
  rfl

theorem tokens_obj_closed (members : List (List Piece × Doc)) (key : List Piece) :
    (obj ((key, d) :: members).reverse .closed).tokens =
      .openObj :: (opened.openedMembers members ++ (.str key :: .colon :: d.tokens)
        ++ [.closeObj]) := by
  rw [tokens, memberTokens_eq_map, List.reverse_cons, List.map_append, List.map_singleton,
    commas_append_singleton, List.flatMap_map]
  rfl

/-- The parser accounts for the tokens it is given and for what is open before them. -/
theorem value_accounts (frames : List Frame) (ts : List Token) :
    Accounts (opened frames ++ ts) (value frames ts) := by
  -- One statement for each of the functions that read a value, a key and what follows a value.
  refine Doc.value.induct (fun frames ts => Accounts (opened frames ++ ts) (value frames ts))
    (fun members comma frames ts =>
      Accounts (opened frames ++ .openObj :: (opened.openedMembers members ++ ts))
        (key members comma frames ts))
    (fun d frames ts => Accounts (opened frames ++ (d.tokens ++ ts)) (follow d frames ts))
    ?null ?bool ?num ?str ?emptyArr ?arr ?emptyObj ?obj ?broken ?noValue ?key ?noColon ?brokenKey
    ?noKey ?done ?nextItem ?closeArr ?noItem ?nextMember ?closeObj ?noMember frames ts
  case null | bool | num | str | emptyArr | emptyObj =>
      intros
      rw [value]
      assumption
  case arr =>
      intro frames ts hne ih
      rw [value]
      · simpa [opened] using ih
      · exact hne
  case obj =>
      intro frames ts hne ih
      rw [value]
      · exact ih
      · exact hne
  case broken =>
      intros
      rw [value]
      exact accounts_cut (not_whole_broken _)
  case noValue =>
      intros
      rw [value]
      · exact accounts_cut (not_whole_broken _)
      all_goals assumption
  case key =>
      intro members comma frames pieces ts ih
      rw [key]
      simpa [opened] using ih
  case noColon =>
      intros
      rw [key]
      · exact accounts_cut (not_whole_broken _)
      · assumption
  case brokenKey =>
      intros
      rw [key]
      exact accounts_cut (not_whole_obj_stopped _ _ _)
  case noKey =>
      intros
      rw [key]
      · exact accounts_cut (not_whole_obj_stopped _ _ _)
      all_goals assumption
  case done =>
      intro d ts
      rw [follow]
      exact fun _ => rfl
  case nextItem =>
      intro d items frames ts ih
      rw [follow]
      simpa [opened] using ih
  case closeArr =>
      intro d items frames ts ih
      rw [follow]
      rw [tokens_arr_closed] at ih
      simpa [opened] using ih
  case nextMember =>
      intro d members k frames ts ih
      rw [follow]
      simpa [opened, opened.openedMembers] using ih
  case closeObj =>
      intro d members k frames ts ih
      rw [follow]
      rw [tokens_obj_closed] at ih
      simpa [opened] using ih
  case noItem =>
      intros
      rw [follow]
      · exact accounts_cut (not_whole_arr_stopped _ _ _)
      all_goals assumption
  case noMember =>
      intros
      rw [follow]
      · exact accounts_cut (not_whole_obj_stopped _ _ _)
      all_goals assumption

theorem parse_tokens (h : parse ts = (d, rest)) (hd : d.Whole) : ts = d.tokens ++ rest := by
  have haccounts := value_accounts [] ts
  rw [parse] at h
  rw [h] at haccounts
  exact haccounts hd

/-! ### What the parser takes -/

theorem value_openArr (hd : d.Whole) (ts : List Token) :
    value frames (.openArr :: (d.tokens ++ ts)) = value (.arr [] :: frames) (d.tokens ++ ts) := by
  cases hd <;> rfl

/-- The parser takes the items of an array when it takes each of them. -/
theorem value_items (before : List Doc) {items : List Doc}
    (h : ∀ e ∈ d :: items, ∀ frames ts, value frames (e.tokens ++ ts) = follow e frames ts)
    (frames : List Frame) (ts : List Token) :
    value (.arr before :: frames) (commas ((d :: items).map tokens) ++ .closeArr :: ts) =
      follow (.arr (before.reverse ++ d :: items) .closed) frames ts := by
  induction items generalizing d before with
  | nil =>
      rw [List.map_singleton, commas_singleton, h d List.mem_cons_self, follow, List.reverse_cons]
  | cons e items ih =>
      have hrest := ih (d :: before) fun e' hmem => h e' (List.mem_cons_of_mem _ hmem)
      rw [List.map_cons] at hrest
      rw [List.map_cons, List.map_cons, commas_cons_cons, List.append_assoc,
        h d List.mem_cons_self, List.cons_append, follow, hrest, List.reverse_cons,
        List.append_assoc]
      rfl

/-- The parser takes the members of an object when it takes each of their values. -/
theorem key_members (before : List (List Piece × Doc)) {members : List (List Piece × Doc)}
    {m : List Piece × Doc} (comma : Bool)
    (h : ∀ e ∈ m :: members, ∀ frames ts, value frames (e.2.tokens ++ ts) = follow e.2 frames ts)
    (frames : List Frame) (ts : List Token) :
    key before comma frames
        (commas ((m :: members).map fun m => .str m.1 :: .colon :: m.2.tokens) ++ .closeObj :: ts) =
      follow (.obj (before.reverse ++ m :: members) .closed) frames ts := by
  induction members generalizing m before comma with
  | nil =>
      rw [List.map_singleton, commas_singleton, List.cons_append, List.cons_append, key,
        h m List.mem_cons_self, follow, List.reverse_cons]
  | cons e members ih =>
      have hrest := ih (m :: before) true fun e' hmem => h e' (List.mem_cons_of_mem _ hmem)
      rw [List.map_cons] at hrest
      rw [List.map_cons, List.map_cons, commas_cons_cons, List.append_assoc, List.cons_append,
        List.cons_append, key, h m List.mem_cons_self, List.cons_append, follow, hrest,
        List.reverse_cons, List.append_assoc]
      rfl

theorem value_append (h : d.Whole) (frames : List Frame) (ts : List Token) :
    value frames (d.tokens ++ ts) = follow d frames ts := by
  induction h generalizing frames ts with
  | @arr items hitems ih =>
      rw [tokens, itemTokens_eq_map, List.cons_append, List.append_assoc]
      cases items with
      | nil => rfl
      | cons d items =>
          have hvalue := value_items [] ih frames ts
          obtain ⟨us, hus⟩ := exists_commas_cons d.tokens (items.map tokens)
          rw [List.map_cons, hus, List.append_assoc] at hvalue ⊢
          rw [value_openArr (hitems d List.mem_cons_self)]
          exact hvalue
  | @obj members _ ih =>
      rw [tokens, memberTokens_eq_map, List.cons_append, List.append_assoc]
      cases members with
      | nil => rfl
      | cons m members =>
          have hkey := key_members [] false ih frames ts
          obtain ⟨us, hus⟩ := exists_commas_cons (.str m.1 :: .colon :: m.2.tokens)
            (members.map fun m => .str m.1 :: .colon :: m.2.tokens)
          rw [List.map_cons, hus] at hkey ⊢
          exact hkey
  | _ => rfl

theorem parse_append (h : d.Whole) (ts : List Token) : parse (d.tokens ++ ts) = (d, ts) := by
  rw [parse, value_append h, follow]

/-- A text that spells a whole document is read as this document. -/
theorem parse_scan_of_spelled {cs : List Char} (h : d.Whole) (hcs : Token.Spelled d.tokens cs) :
    parse (Token.scan cs) = (d, []) := by
  rw [Token.scan_eq_of_spelled hcs h.separated, ← parse_append h, List.append_nil]

/-! ### Passing over a document -/

theorem skip_ending_eq_ok_iff (ending : Ending) : ending.skip = .ok () ↔ ending = .closed := by
  cases ending <;> simp [Ending.skip]

theorem skip_eq_ok_iff (d : Doc) : d.skip = .ok () ↔ d.Whole := by
  refine Doc.skip.induct (fun d => d.skip = .ok () ↔ d.Whole)
    (fun members => skipMembers members = .ok () ↔ ∀ m ∈ members, m.2.Whole)
    (fun items => skipItems items = .ok () ↔ ∀ d ∈ items, d.Whole)
    ?arr ?obj ?broken ?other ?noItem ?item ?noMember ?member d
  case arr =>
      intro items ending ih
      rw [skip, bind_unit_eq_ok_iff, ih, skip_ending_eq_ok_iff, whole_arr_iff]
  case obj =>
      intro members ending ih
      rw [skip, bind_unit_eq_ok_iff, ih, skip_ending_eq_ok_iff, whole_obj_iff]
  case broken =>
      intro b
      refine iff_of_false ?_ (not_whole_broken b)
      intro h
      cases h
  case other =>
      intro d harr hobj hbroken
      cases d with
      | null => exact iff_of_true rfl .null
      | bool b => exact iff_of_true rfl (.bool b)
      | num n => exact iff_of_true rfl (.num n)
      | str pieces => exact iff_of_true rfl (.str pieces)
      | arr items ending => exact absurd rfl (harr items ending)
      | obj members ending => exact absurd rfl (hobj members ending)
      | broken b => exact absurd rfl (hbroken b)
  case noItem | noMember => exact iff_of_true rfl (List.forall_mem_nil _)
  case item =>
      intro d ds ihd ih
      rw [skipItems, bind_unit_eq_ok_iff, ihd, ih, List.forall_mem_cons]
  case member =>
      intro k d ms ihd ih
      rw [skipMembers, bind_unit_eq_ok_iff, ihd, ih, List.forall_mem_cons]

end Doc

end TaskFlow.Json
