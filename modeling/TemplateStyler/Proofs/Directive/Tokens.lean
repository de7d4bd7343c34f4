import Mathlib.Data.Nat.Digits.Defs
import TemplateStyler.Directive.Parse
import TemplateStyler.Proofs.Fault
import TemplateStyler.Proofs.Text.Ends

/-!
# The tokens of a directive

The grammar of directives says which words spell a token and that a text is cut at the longest of
them. It says nothing about how the longest one is found.

* `Token.Spells`: the words that spell a token. `Token.Longest`: a word that spells one, where no
  longer part of the text does. `Token.Splits`: a text cut into such words, with blanks between.
* `Token.found_first`: the scanner finds the longest word, and refuses one that is the numeral of
  too large an integer.
* `Token.exists_scan_iff`: **the scanner cuts a text as the grammar says**, and refuses it if and
  only if it cannot be cut or holds too large an integer.
-/

namespace TemplateStyler

open Text

namespace Token

/-- The number that a decimal digit stands for. -/
def digit (c : Char) : Nat := c.toNat - '0'.toNat

/-- The words that spell a token. The keywords are no names. -/
inductive Spells : Token → Text → Prop
  | letWord : Spells .letWord "let".toList
  | inWord : Spells .inWord "in".toList
  | comma : Spells .comma ",".toList
  | dots : Spells .dots "..".toList
  | randomSign : Spells .randomSign "+-".toList
  | plus : Spells .plus "+".toList
  | minus : Spells .minus "-".toList
  | integer {digits : Text} (hne : digits ≠ []) (h : ∀ c ∈ digits, c.isDigit = true) :
      Spells (.integer (Nat.ofDigits 10 (digits.map digit).reverse)) digits
  | name {c : Char} {cs : Text} (hc : startsName c = true)
      (hcs : ∀ d ∈ cs, continuesName d = true) (hlet : c :: cs ≠ "let".toList)
      (hin : c :: cs ≠ "in".toList) : Spells (.name (c :: cs)) (c :: cs)

/-- A word that spells a token, where no longer part at the start of the text spells any. -/
structure Longest (token : Token) (word rest : Text) : Prop where
  spells : Spells token word
  longest : ∀ other longer, Spells other longer → longer <+: word ++ rest →
    longer.length ≤ word.length

/-- A text cut into tokens from left to right, each with the longest word, and blanks between. -/
inductive Splits : Text → List Token → Prop
  | nil : Splits [] []
  | blank {c : Char} {cs : Text} {ts : List Token} (hc : isBlank c = true) (h : Splits cs ts) :
      Splits (c :: cs) ts
  | token {t : Token} {word rest : Text} {ts : List Token} (hword : Longest t word rest)
      (h : Splits rest ts) : Splits (word ++ rest) (t :: ts)

/-- Any token but an integer beyond the signed ones of 64 bits. -/
def Fits (t : Token) : Prop := ∀ n, t = .integer n → n ≤ 9223372036854775807

/-! ### Words -/

theorem value_eq_ofDigits (digits : Text) :
    value digits = Nat.ofDigits 10 (digits.map digit).reverse := by
  rw [Nat.ofDigits_eq_foldr, List.foldr_reverse, List.foldl_map, value]
  simp only [digit, Nat.cast_id, Nat.add_comm]

theorem Spells.ne_nil {t : Token} {word : Text} (h : Spells t word) : word ≠ [] := by
  cases h <;> first | assumption | exact List.cons_ne_nil _ _

theorem spells_ofWord {c : Char} {cs : Text} (hc : startsName c = true)
    (hcs : ∀ d ∈ cs, continuesName d = true) : Spells (ofWord (c :: cs)) (c :: cs) := by
  unfold ofWord
  split_ifs with hlet hin
  · rw [hlet]
    exact .letWord
  · rw [hin]
    exact .inWord
  · exact .name hc hcs hlet hin

theorem spells_value {c : Char} {cs : Text} (hc : c.isDigit = true)
    (hcs : ∀ d ∈ cs, d.isDigit = true) : Spells (.integer (value (c :: cs))) (c :: cs) := by
  rw [value_eq_ofDigits]
  exact .integer (List.cons_ne_nil _ _) (List.forall_mem_cons.2 ⟨hc, hcs⟩)

/-- The words that are neither keyword, name nor numeral. -/
def marks : List (Token × Text) :=
  [(.comma, [',']), (.dots, ['.', '.']), (.randomSign, ['+', '-']), (.plus, ['+']), (.minus, ['-'])]

/-- **The first character of a word** tells which kind of token the word spells. -/
theorem Spells.cases_first {t : Token} {c : Char} {cs : Text} (h : Spells t (c :: cs)) :
    (startsName c = true ∧ (∀ d ∈ cs, continuesName d = true) ∧ t = ofWord (c :: cs)) ∨
      (c.isDigit = true ∧ (∀ d ∈ cs, d.isDigit = true) ∧ t = .integer (value (c :: cs))) ∨
      (t, c :: cs) ∈ marks := by
  generalize hword : c :: cs = word at h
  cases h with
  | letWord =>
    obtain ⟨rfl, rfl⟩ := List.cons.inj hword
    exact Or.inl ⟨by decide, List.all_eq_true.1 (by decide), by decide⟩
  | inWord =>
    obtain ⟨rfl, rfl⟩ := List.cons.inj hword
    exact Or.inl ⟨by decide, List.all_eq_true.1 (by decide), by decide⟩
  | integer hne h =>
    subst hword
    obtain ⟨hc, hcs⟩ := List.forall_mem_cons.1 h
    exact Or.inr (Or.inl ⟨hc, hcs, by rw [value_eq_ofDigits]⟩)
  | name hc hcs hlet hin =>
    obtain ⟨rfl, rfl⟩ := List.cons.inj hword
    exact Or.inl ⟨hc, hcs, by rw [ofWord, if_neg hlet, if_neg hin]⟩
  | comma | dots | randomSign | plus | minus => exact Or.inr (Or.inr (by decide))

/-- No word starts with a blank. -/
theorem Spells.not_isBlank {t : Token} {c : Char} {cs : Text} (h : Spells t (c :: cs)) :
    isBlank c = false := by
  refine Bool.eq_false_iff.2 fun hblank => ?_
  rw [isBlank, Bool.or_eq_true, beq_iff_eq, beq_iff_eq] at hblank
  rcases h.cases_first with ⟨hc, -⟩ | ⟨hc, -⟩ | hmark
  · rcases hblank with rfl | rfl <;> cases hc
  · rcases hblank with rfl | rfl <;> cases hc
  · rcases hblank with rfl | rfl <;> simp [marks] at hmark

theorem not_isDigit_of_startsName {c : Char} (h : startsName c = true) : c.isDigit = false := by
  rcases Bool.or_eq_true_iff.1 h with h | h
  · exact not_isDigit_of_isAlpha h
  · rw [beq_iff_eq.1 h]
    rfl

theorem first_of_mem_marks {t : Token} {c : Char} {cs : Text} (h : (t, c :: cs) ∈ marks) :
    startsName c = false ∧ c.isDigit = false := by
  have hall : ∀ m ∈ marks, m.2.head?.all (fun d => !startsName d && !d.isDigit) = true := by decide
  simpa using hall _ h

theorem marks_unique {t u : Token} {word : Text} (ht : (t, word) ∈ marks) (hu : (u, word) ∈ marks) :
    t = u := by
  have hall : ∀ m ∈ marks, ∀ n ∈ marks, m.2 = n.2 → m.1 = n.1 := by decide
  exact hall _ ht _ hu rfl

theorem Spells.of_startsName {t : Token} {c : Char} {cs : Text} (h : Spells t (c :: cs))
    (hc : startsName c = true) : (∀ d ∈ cs, continuesName d = true) ∧ t = ofWord (c :: cs) := by
  rcases h.cases_first with ⟨-, h⟩ | ⟨hd, -⟩ | hmark
  · exact h
  · rw [not_isDigit_of_startsName hc] at hd
    cases hd
  · rw [(first_of_mem_marks hmark).1] at hc
    cases hc

theorem Spells.of_isDigit {t : Token} {c : Char} {cs : Text} (h : Spells t (c :: cs))
    (hc : c.isDigit = true) : (∀ d ∈ cs, d.isDigit = true) ∧ t = .integer (value (c :: cs)) := by
  rcases h.cases_first with ⟨hd, -⟩ | ⟨-, h⟩ | hmark
  · rw [not_isDigit_of_startsName hd] at hc
    cases hc
  · exact h
  · rw [(first_of_mem_marks hmark).2] at hc
    cases hc

theorem Spells.mem_marks {t : Token} {c : Char} {cs : Text} (h : Spells t (c :: cs))
    (hname : ¬ startsName c = true) (hdigit : ¬ c.isDigit = true) : (t, c :: cs) ∈ marks :=
  h.cases_first.elim (fun h => absurd h.1 hname) (Or.elim · (fun h => absurd h.1 hdigit) id)

/-- A word spells one token only. -/
theorem Spells.unique {t u : Token} {word : Text} (ht : Spells t word) (hu : Spells u word) :
    t = u := by
  obtain ⟨c, cs, rfl⟩ := List.exists_cons_of_ne_nil ht.ne_nil
  by_cases hname : startsName c = true
  · rw [(ht.of_startsName hname).2, (hu.of_startsName hname).2]
  · by_cases hdigit : c.isDigit = true
    · rw [(ht.of_isDigit hdigit).2, (hu.of_isDigit hdigit).2]
    · exact marks_unique (ht.mem_marks hname hdigit) (hu.mem_marks hname hdigit)

/-- The longest word at the start of a text is one. -/
theorem Longest.unique {t u : Token} {word rest word' rest' : Text} (ht : Longest t word rest)
    (hu : Longest u word' rest') (h : word ++ rest = word' ++ rest') :
    t = u ∧ word = word' ∧ rest = rest' := by
  have hle : word'.length ≤ word.length := ht.longest u word' hu.spells (h ▸ List.prefix_append _ _)
  have hge : word.length ≤ word'.length := hu.longest t word ht.spells (h ▸ List.prefix_append _ _)
  obtain ⟨rfl, rfl⟩ := List.append_inj h (Nat.le_antisymm hge hle)
  exact ⟨ht.spells.unique hu.spells, rfl, rfl⟩

/-! ### The longest word -/

/-- A part at the start of a text that passes a test throughout is within the run that does. -/
theorem length_le_takeWhile {p : Char → Bool} {part cs : Text} (hpart : part <+: cs)
    (h : ∀ c ∈ part, p c = true) : part.length ≤ (cs.takeWhile p).length := by
  obtain ⟨rest, rfl⟩ := hpart
  rw [List.takeWhile_append_of_pos h, List.length_append]
  exact Nat.le_add_right _ _

theorem fits_ofWord (word : Text) : (ofWord word).Fits := by
  intro n h
  unfold ofWord at h
  split_ifs at h

/-- What is longest is told by the characters that the first one allows. -/
theorem longest_takeWhile {t : Token} {p : Char → Bool} {c : Char} {cs : Text}
    (hspells : Spells t (c :: cs.takeWhile p))
    (h : ∀ {u : Token} {rest : Text}, Spells u (c :: rest) → ∀ d ∈ rest, p d = true) :
    Longest t (c :: cs.take (cs.takeWhile p).length) (cs.drop (cs.takeWhile p).length) := by
  have htake : cs.take (cs.takeWhile p).length = cs.takeWhile p :=
    (List.prefix_iff_eq_take.1 (List.takeWhile_prefix p)).symm
  refine ⟨by rwa [htake], fun other longer hother hprefix => ?_⟩
  obtain ⟨d, rest, rfl⟩ := List.exists_cons_of_ne_nil hother.ne_nil
  rw [List.cons_append, List.take_append_drop, List.cons_prefix_cons] at hprefix
  obtain ⟨rfl, hprefix⟩ := hprefix
  rw [htake]
  exact Nat.succ_le_succ (length_le_takeWhile hprefix (h hother))

theorem spells_of_mem_marks {t : Token} {word : Text} (h : (t, word) ∈ marks) : Spells t word := by
  simp only [marks, List.mem_cons, Prod.mk.injEq, List.not_mem_nil, or_false] at h
  rcases h with ⟨rfl, rfl⟩ | ⟨rfl, rfl⟩ | ⟨rfl, rfl⟩ | ⟨rfl, rfl⟩ | ⟨rfl, rfl⟩
  · exact .comma
  · exact .dots
  · exact .randomSign
  · exact .plus
  · exact .minus

/-- Behind a mark only marks can be longer. -/
theorem longest_of_mem_marks {t : Token} {word rest : Text} (h : (t, word) ∈ marks)
    (hlongest : ∀ m ∈ marks, m.2 <+: word ++ rest → m.2.length ≤ word.length) :
    Longest t word rest := by
  refine ⟨spells_of_mem_marks h, fun other longer hother hprefix => ?_⟩
  obtain ⟨c, cs, rfl⟩ := List.exists_cons_of_ne_nil (spells_of_mem_marks h).ne_nil
  obtain ⟨d, ds, rfl⟩ := List.exists_cons_of_ne_nil hother.ne_nil
  obtain ⟨hname, hdigit⟩ := first_of_mem_marks h
  obtain rfl : d = c := (List.cons_prefix_cons.1 hprefix).1
  exact hlongest _ (hother.mem_marks (by simp [hname]) (by simp [hdigit])) hprefix

/-- What there is to find at the start of a text: a token, the numeral of too large an integer, or
nothing that a token starts with. -/
inductive Found (c : Char) (cs : Text) : Except Nat (Token × Nat) → Prop
  | token {t : Token} {n : Nat} (hword : Longest t (c :: cs.take n) (cs.drop n)) (hfits : t.Fits) :
      Found c cs (.ok (t, n))
  | tooLarge {t : Token} {n : Nat} (hword : Longest t (c :: cs.take n) (cs.drop n))
      (hlarge : ¬ t.Fits) : Found c cs (.error n)
  | nothing (hnone : ∀ t word, word <+: c :: cs → ¬ Spells t word) : Found c cs (.error 0)

theorem found_mark {t : Token} {n : Nat} {c : Char} {cs : Text} (h : (t, c :: cs.take n) ∈ marks)
    (hlongest : ∀ m ∈ marks, m.2 <+: c :: cs → m.2.length ≤ (c :: cs.take n).length) :
    Found c cs (.ok (t, n)) := by
  refine .token (longest_of_mem_marks h ?_) ?_
  · rwa [List.cons_append, List.take_append_drop]
  · have hall : ∀ m ∈ marks, ∀ k, m.1 ≠ .integer k := by simp [marks]
    exact fun k hk => absurd hk (hall _ h k)

/-- **The scanner finds the longest word.** -/
theorem found_first (c : Char) (cs : Text) : Found c cs (first c cs) := by
  unfold first
  split_ifs with hname hdigit
  · have hcs : ∀ d ∈ cs.takeWhile continuesName, continuesName d = true :=
      List.all_eq_true.1 List.all_takeWhile
    exact .token (longest_takeWhile (spells_ofWord hname hcs) fun h => (h.of_startsName hname).1)
      (fits_ofWord _)
  · have hcs : ∀ d ∈ cs.takeWhile Char.isDigit, d.isDigit = true :=
      List.all_eq_true.1 List.all_takeWhile
    have hword := longest_takeWhile (spells_value hdigit hcs) fun h => (h.of_isDigit hdigit).1
    dsimp only
    split_ifs with hsmall
    · refine .token hword ?_
      rintro n ⟨⟩
      exact Nat.le_of_lt_succ hsmall
    · exact .tooLarge hword fun h => hsmall (Nat.lt_succ_of_le (h _ rfl))
  · split
    · exact found_mark (by simp [marks]) (by simp [marks])
    · next hhead =>
      obtain ⟨rest, rfl⟩ := List.head?_eq_some_iff.1 hhead
      exact found_mark (by simp [marks]) (by simp [marks])
    · next hhead =>
      obtain ⟨rest, rfl⟩ := List.head?_eq_some_iff.1 hhead
      exact found_mark (by simp [marks]) (by simp [marks])
    · next hhead =>
      have hminus : ¬ ['-'] <+: cs := fun ⟨rest, hrest⟩ => hhead (by rw [← hrest]; rfl)
      exact found_mark (by simp [marks]) (by simp [marks, hminus])
    · exact found_mark (by simp [marks]) (by simp [marks])
    · next hcomma hplus hminus hdots _ =>
      refine .nothing fun t word hprefix hspells => ?_
      obtain ⟨d, ds, rfl⟩ := List.exists_cons_of_ne_nil hspells.ne_nil
      obtain ⟨rfl, hds⟩ := List.cons_prefix_cons.1 hprefix
      have hmark := hspells.mem_marks hname hdigit
      simp only [marks, List.mem_cons, Prod.mk.injEq, List.cons.injEq, List.not_mem_nil,
        or_false] at hmark
      rcases hmark with ⟨-, hd, -⟩ | ⟨-, hd, rfl⟩ | ⟨-, hd, -⟩ | ⟨-, hd, -⟩ | ⟨-, hd, -⟩
      · exact hcomma hd
      · obtain ⟨rest, rfl⟩ := hds
        exact hdots hd rfl
      · exact hplus hd
      · exact hplus hd
      · exact hminus hd

/-! ### The cut -/

theorem splits_nil_iff {ts : List Token} : Splits [] ts ↔ ts = [] := by
  constructor
  · intro h
    generalize hnil : ([] : Text) = text at h
    cases h with
    | nil => rfl
    | blank => cases hnil
    | token hword => exact absurd (List.append_eq_nil_iff.1 hnil.symm).1 hword.spells.ne_nil
  · rintro rfl
    exact .nil

theorem splits_blank_iff {c : Char} {cs : Text} {ts : List Token} (hc : isBlank c = true) :
    Splits (c :: cs) ts ↔ Splits cs ts := by
  constructor
  · intro h
    generalize htext : c :: cs = text at h
    cases h with
    | nil => cases htext
    | blank hd h =>
      obtain ⟨-, rfl⟩ := List.cons.inj htext
      exact h
    | @token t word rest ts hword h =>
      obtain ⟨d, ds, rfl⟩ := List.exists_cons_of_ne_nil hword.spells.ne_nil
      obtain ⟨rfl, -⟩ := List.cons.inj htext
      rw [hword.spells.not_isBlank] at hc
      cases hc
  · exact .blank hc

/-- At a word the cut goes on behind the longest one. -/
theorem splits_cons_iff {c : Char} {cs : Text} {ts : List Token} (hc : isBlank c = false) :
    Splits (c :: cs) ts ↔ ∃ t word rest us, c :: cs = word ++ rest ∧ Longest t word rest ∧
      Splits rest us ∧ ts = t :: us := by
  constructor
  · intro h
    generalize htext : c :: cs = text at h
    cases h with
    | nil => cases htext
    | blank hd =>
      obtain ⟨rfl, -⟩ := List.cons.inj htext
      rw [hc] at hd
      cases hd
    | token hword h => exact ⟨_, _, _, _, rfl, hword, h, rfl⟩
  · rintro ⟨t, word, rest, us, htext, hword, h, rfl⟩
    rw [htext]
    exact .token hword h

/-- **The scanner cuts a text as the grammar says.** -/
theorem exists_scan_iff {column : Nat} {cs : Text} {ts : List Token} :
    (∃ placed, scan column cs = .ok placed ∧ placed.map Placed.token = ts) ↔
      Splits cs ts ∧ ∀ t ∈ ts, t.Fits := by
  fun_induction scan column cs generalizing ts with
  | case1 =>
    rw [splits_nil_iff]
    constructor
    · rintro ⟨placed, ⟨⟩, rfl⟩
      exact ⟨rfl, List.forall_mem_nil _⟩
    · rintro ⟨rfl, -⟩
      exact ⟨[], rfl, rfl⟩
  | case2 column c cs hblank ih => rw [ih, splits_blank_iff hblank]
  | case3 column c cs hblank t n hfirst ih =>
    have hfound := found_first c cs
    rw [hfirst] at hfound
    obtain ⟨hword, hfits⟩ := hfound
    rw [splits_cons_iff (Bool.eq_false_iff.2 hblank)]
    -- The longest word is one, so that the scanner and the grammar go on behind the same one.
    constructor
    · rintro ⟨placed, hplaced, rfl⟩
      obtain ⟨rest, hrest, rfl⟩ := Fault.map_eq_ok_iff.1 hplaced
      obtain ⟨hsplits, hrest⟩ := ih.1 ⟨rest, hrest, rfl⟩
      exact ⟨⟨t, _, _, _, by rw [List.cons_append, List.take_append_drop], hword, hsplits, rfl⟩,
        List.forall_mem_cons.2 ⟨hfits, hrest⟩⟩
    · rintro ⟨⟨u, word, rest, us, htext, hlongest, hsplits, rfl⟩, hall⟩
      obtain ⟨rfl, rfl, rfl⟩ := hword.unique hlongest
        (by rw [← htext, List.cons_append, List.take_append_drop])
      obtain ⟨placed, hplaced, rfl⟩ := ih.2 ⟨hsplits, (List.forall_mem_cons.1 hall).2⟩
      exact ⟨_, Fault.map_eq_ok_iff.2 ⟨placed, hplaced, rfl⟩, rfl⟩
  | case4 column c cs hblank n hfirst =>
    have hfound := found_first c cs
    rw [hfirst] at hfound
    rw [splits_cons_iff (Bool.eq_false_iff.2 hblank)]
    constructor
    · rintro ⟨placed, ⟨⟩, -⟩
    · rintro ⟨⟨u, word, rest, us, htext, hlongest, hsplits, rfl⟩, hall⟩
      cases hfound with
      | @tooLarge t n hword hlarge =>
        obtain ⟨rfl, -⟩ := hword.unique hlongest
          (by rw [← htext, List.cons_append, List.take_append_drop])
        exact absurd (List.forall_mem_cons.1 hall).1 hlarge
      | nothing hnone =>
        exact absurd hlongest.spells (hnone u word (htext ▸ List.prefix_append _ _))

end Token

end TemplateStyler
