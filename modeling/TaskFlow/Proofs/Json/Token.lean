import Mathlib.Data.List.Chain
import TaskFlow.Json.Token
import TaskFlow.Proofs.Json.Numeral
import TaskFlow.Proofs.Json.Piece

/-! # How tokens are spelled

`Token.Spelled ts cs` says that the text `cs` is made of the tokens `ts`, with spaces before, between
and after them.  A token that stands for a break has no spelling.  What the scanner returns without
a break is spelled by the text it was given (`scan_spelled`); conversely a text that spells some
tokens is scanned into these, provided that no two numbers meet (`scan_eq_of_spelled`). -/

namespace TaskFlow.Json

namespace Token

variable {t : Token} {ts : List Token} {c : Char} {w cs rest : List Char}

/-- Only characters that may stand between tokens. -/
def Spaces (s : List Char) : Prop :=
  ∀ c ∈ s, isSpace c = true

/-- The text is the token. -/
inductive Written : Token → List Char → Prop
  | openArr : Written .openArr ['[']
  | closeArr : Written .closeArr [']']
  | openObj : Written .openObj ['{']
  | closeObj : Written .closeObj ['}']
  | comma : Written .comma [',']
  | colon : Written .colon [':']
  | nullWord : Written .null ['n', 'u', 'l', 'l']
  | trueWord : Written (.bool true) ['t', 'r', 'u', 'e']
  | falseWord : Written (.bool false) ['f', 'a', 'l', 's', 'e']
  | num {n : Numeral} {w : List Char} : n.Written w → Written (.num n) w
  | str {ps : List Piece} {w : List Char} :
      Piece.AllWritten ps w → Written (.str ps) ('"' :: (w ++ ['"']))

/-- The text is a sequence of tokens with spaces before, between and after them. -/
inductive Spelled : List Token → List Char → Prop
  | nil {s : List Char} : Spaces s → Spelled [] s
  | cons {t : Token} {ts : List Token} {s w cs : List Char} :
      Spaces s → Written t w → Spelled ts cs → Spelled (t :: ts) (s ++ (w ++ cs))

/-- The token is a number. -/
def IsNum (t : Token) : Prop :=
  ∃ n, t = .num n

/-- No two numbers follow one another. -/
def Separated (ts : List Token) : Prop :=
  ts.IsChain fun s t => ¬ (s.IsNum ∧ t.IsNum)

/-! ### What the scanner returns -/

theorem scanWord_eq_ok_iff {ws : List Char} : scanWord ws cs = .ok rest ↔ cs = ws ++ rest := by
  induction ws generalizing cs with
  | nil => simp [scanWord]
  | cons d ws ih =>
      cases cs with
      | nil => simp [scanWord]
      | cons c cs =>
          rw [scanWord]
          split
          · rename_i hdc
            rw [ih, hdc]
            simp
          · rename_i hdc
            simp [Ne.symm hdc]

theorem word_written {t₀ : Token} {ws : List Char} (h : word t₀ ws cs = (t, rest))
    (hb : ∀ b, t ≠ .broken b) : t = t₀ ∧ cs = ws ++ rest := by
  unfold word at h
  split at h
  · rename_i hscan
    cases h
    exact ⟨rfl, scanWord_eq_ok_iff.1 hscan⟩
  · cases h
    exact absurd rfl (hb _)

theorem number_written (h : number cs = (t, rest)) (hb : ∀ b, t ≠ .broken b) :
    ∃ w, Written t w ∧ cs = w ++ rest := by
  unfold number at h
  split at h
  · rename_i hscan
    cases h
    obtain ⟨w, hw, rfl⟩ := Numeral.scan_written hscan
    exact ⟨w, .num hw, rfl⟩
  · cases h
    exact absurd rfl (hb _)

theorem text_written (h : text cs = (t, rest)) (hb : ∀ b, t ≠ .broken b) :
    ∃ w, Written t w ∧ '"' :: cs = w ++ rest := by
  unfold text at h
  split at h
  · rename_i hscan
    cases h
    obtain ⟨w, hw, rfl⟩ := Piece.scan_written hscan
    exact ⟨_, .str hw, by simp⟩
  · cases h
    exact absurd rfl (hb _)

theorem first_written (h : first c cs = (t, rest)) (hb : ∀ b, t ≠ .broken b) :
    ∃ w, Written t w ∧ c :: cs = w ++ rest := by
  unfold first at h
  split at h
  · cases h; exact ⟨_, .openArr, rfl⟩
  · cases h; exact ⟨_, .closeArr, rfl⟩
  · cases h; exact ⟨_, .openObj, rfl⟩
  · cases h; exact ⟨_, .closeObj, rfl⟩
  · cases h; exact ⟨_, .comma, rfl⟩
  · cases h; exact ⟨_, .colon, rfl⟩
  · exact text_written h hb
  · obtain ⟨rfl, rfl⟩ := word_written h hb
    exact ⟨_, .nullWord, rfl⟩
  · obtain ⟨rfl, rfl⟩ := word_written h hb
    exact ⟨_, .trueWord, rfl⟩
  · obtain ⟨rfl, rfl⟩ := word_written h hb
    exact ⟨_, .falseWord, rfl⟩
  · exact number_written h hb
  · split at h
    · exact number_written h hb
    · cases h
      exact absurd rfl (hb _)

theorem Spelled.space_cons (hc : isSpace c = true) (h : Spelled ts cs) : Spelled ts (c :: cs) := by
  cases h with
  | nil hs => exact .nil (List.forall_mem_cons.2 ⟨hc, hs⟩)
  | @cons t ts s w cs hs hw hcs =>
      exact .cons (s := c :: s) (List.forall_mem_cons.2 ⟨hc, hs⟩) hw hcs

theorem scan_spelled (cs : List Char) (hb : ∀ b, Token.broken b ∉ scan cs) :
    Spelled (scan cs) cs := by
  fun_induction scan cs with
  | case1 => exact .nil fun _ h => absurd h List.not_mem_nil
  | case2 c cs hc ih => exact (ih hb).space_cons hc
  | case3 c cs hc ih =>
      have hfirst : ∀ b, (first c cs).1 ≠ .broken b := by
        intro b h
        exact hb b (h ▸ List.mem_cons_self)
      obtain ⟨w, hw, heq⟩ := first_written rfl hfirst
      have hrest := ih fun b h => hb b (List.mem_cons_of_mem _ h)
      rw [heq]
      exact .cons (s := []) (fun _ h => absurd h List.not_mem_nil) hw hrest

/-! ### What the scanner takes -/

theorem isSpace_of_isDigit (hc : c.isDigit = true) : isSpace c = false := by
  by_contra h
  simp only [isSpace, Bool.not_eq_false, Bool.or_eq_true, beq_iff_eq] at h
  rcases h with ((rfl | rfl) | rfl) | rfl <;> exact absurd hc (by decide)

theorem first_of_isDigit (hc : c.isDigit = true) (cs : List Char) :
    first c cs = number (c :: cs) := by
  unfold first
  split
  case h_12 => rw [if_pos hc]
  all_goals exact absurd hc (by decide)

/-- A token begins with no space, and with a character that continues a number only if it is a
number itself. -/
theorem Written.head (h : Written t w) :
    ∃ c cs, w = c :: cs ∧ isSpace c = false ∧ (Numeral.continues c = true → t.IsNum) := by
  cases h with
  | num h =>
      cases h with
      | @mk w f e hw =>
          obtain ⟨c, cs, rfl, hc⟩ := hw.head
          split
          · exact ⟨'-', _, rfl, by decide, fun _ => ⟨_, rfl⟩⟩
          · exact ⟨c, _, rfl, isSpace_of_isDigit hc, fun _ => ⟨_, rfl⟩⟩
  | str => exact ⟨'"', _, rfl, by decide, fun h => absurd h (by decide)⟩
  | _ => exact ⟨_, _, rfl, by decide, fun h => absurd h (by decide)⟩

theorem number_append {n : Numeral} (h : n.Written w)
    (hrest : NotBefore Numeral.continues rest) : number (w ++ rest) = (num n, rest) := by
  rw [number, Numeral.scan_append h hrest]

theorem first_append (h : Written t w) (hw : w = c :: cs)
    (hrest : t.IsNum → NotBefore Numeral.continues rest) :
    first c (cs ++ rest) = (t, rest) := by
  cases h with
  | num h =>
      have hnumber := number_append h (hrest ⟨_, rfl⟩)
      cases h with
      | mk hw' =>
          obtain ⟨d, ds, rfl, hd⟩ := hw'.head
          rw [hw] at hnumber
          split at hw
          · cases hw
            exact hnumber
          · cases hw
            rw [first_of_isDigit hd]
            exact hnumber
  | @str ps w h =>
      cases hw
      have hscan := Piece.scan_append h rest
      have htext : text (w ++ '"' :: rest) = (.str ps, rest) := by rw [text, hscan]
      rw [List.append_assoc]
      exact htext
  | _ =>
      cases hw
      rfl

theorem scan_spaces {s : List Char} (hs : Spaces s) (cs : List Char) : scan (s ++ cs) = scan cs := by
  induction s with
  | nil => rfl
  | cons c s ih =>
      obtain ⟨hc, hs⟩ := List.forall_mem_cons.1 hs
      rw [List.cons_append, scan, if_pos hc, ih hs]

/-- Tokens that do not begin with a number do not continue one. -/
theorem Spelled.notBefore (h : Spelled ts cs) (hts : ∀ t ∈ ts.head?, ¬ t.IsNum) :
    NotBefore Numeral.continues cs := by
  have hspace : ∀ c, isSpace c = true → Numeral.continues c = false := by
    intro c hc
    simp only [isSpace, Bool.or_eq_true, beq_iff_eq] at hc
    rcases hc with ((rfl | rfl) | rfl) | rfl <;> decide
  intro c cs' heq
  cases h with
  | nil hs =>
      subst heq
      exact hspace c (hs c List.mem_cons_self)
  | @cons t ts s w cs hs hw =>
      cases s with
      | cons d s =>
          cases heq
          exact hspace c (hs c List.mem_cons_self)
      | nil =>
          obtain ⟨d, w, rfl, -, hnum⟩ := hw.head
          cases heq
          by_contra hc
          exact hts t rfl (hnum (by simpa using hc))

theorem scan_eq_of_spelled (h : Spelled ts cs) (hsep : Separated ts) : scan cs = ts := by
  induction h with
  | nil hs =>
      have h := scan_spaces hs []
      rw [List.append_nil] at h
      rw [h, scan]
  | @cons t ts s w cs hs hw hcs ih =>
      rw [scan_spaces hs]
      obtain ⟨c, w', rfl, hc, -⟩ := hw.head
      obtain ⟨hnext, hsep⟩ := List.isChain_cons.1 hsep
      have hrest : t.IsNum → NotBefore Numeral.continues cs := by
        intro ht
        exact hcs.notBefore fun u hu hnum => hnext u hu ⟨ht, hnum⟩
      rw [List.cons_append, scan, if_neg (by simp [hc]), first_append hw rfl hrest, ih hsep]

end Token

end TaskFlow.Json
