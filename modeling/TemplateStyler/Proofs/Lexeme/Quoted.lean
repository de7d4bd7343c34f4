import TemplateStyler.Proofs.Lexeme.First
import TemplateStyler.Proofs.Lexeme.Scan

/-!
# Lexemes between quotes

The scanner does not know that it is inside a string. Between two quotes on one line it reads names,
numbers and marks as everywhere else, and all of these end before the second quote. Only a comment
at the end of a line goes on to the newline, with the quote.

* `IsQuote`, `Unquoted`: the quotes and the texts between them that are considered here.
* `holdsComment`: whether such a text holds a comment, by its characters.
* `extent_unquoted`: one lexeme of such a text ends inside it, unless it is a comment.
* `exists_scan_unquoted`: **the closing quote is a lexeme if and only if no comment stands before
  it.**
-/

namespace TemplateStyler

open Text Lexeme

/-- A quote that opens strings which end with their line. -/
def IsQuote (q : Char) : Prop := q = '\'' ∨ q = '"'

/-- A text on one line without quotes and backslashes. -/
def Unquoted (body : Text) : Prop := ∀ c ∈ body, c ∉ ['\'', '"', '\\', '\r', '\n']

instance (body : Text) : Decidable (Unquoted body) :=
  List.decidableBAll (fun c => c ∉ ['\'', '"', '\\', '\r', '\n']) body

/-- The number of characters that belong to a number sign before them: a second number sign, or a
name with its annotation. -/
def hashed (cs : Text) : Nat :=
  if cs.head? = some '#' then 1 else (both (atLeast 1 isWord) annotation cs).getD 0

/-- Whether a comment stands in a text: a number sign between blanks, outside of the annotation of a
name and not behind another number sign. -/
def holdsComment : Text → Bool
  | [] => false
  | c :: cs =>
    if isBlank c then (hashComment cs).isSome || holdsComment cs
    else if c = '#' then holdsComment (cs.drop (hashed cs))
    else holdsComment cs
termination_by cs => cs.length
decreasing_by all_goals (simp only [List.length_drop, List.length_cons]; omega)

theorem Unquoted.of_append {a b : Text} (h : Unquoted (a ++ b)) : Unquoted a ∧ Unquoted b :=
  List.forall_mem_append.1 h

theorem Unquoted.newline_not_mem {body : Text} (h : Unquoted body) : '\n' ∉ body := fun hmem =>
  h _ hmem (by decide)

theorem Unquoted.isLineEnd {body : Text} (h : Unquoted body) :
    ∀ c ∈ body, (!Text.isLineEnd c) = true := by
  intro c hc
  have hnot := h c hc
  simp only [List.mem_cons, List.not_mem_nil, or_false, not_or] at hnot
  simp [Text.isLineEnd, hnot.2.2.2]

/-! ### Quotes -/

namespace IsQuote

variable {q : Char}

theorem isBlank (hq : IsQuote q) : Text.isBlank q = false := by rcases hq with rfl | rfl <;> rfl

theorem isWord (hq : IsQuote q) : Text.isWord q = false := by rcases hq with rfl | rfl <;> decide

theorem isLineEnd (hq : IsQuote q) : Text.isLineEnd q = false := by
  rcases hq with rfl | rfl <;> rfl

theorem ne_newline (hq : IsQuote q) : q ≠ '\n' := by rcases hq with rfl | rfl <;> decide

theorem ne_sign (hq : IsQuote q) : q ≠ '#' := by rcases hq with rfl | rfl <;> decide

theorem not_mem (hq : IsQuote q) {body : Text} (h : Unquoted body) : q ∉ body := by
  intro hmem
  refine h q hmem ?_
  rcases hq with rfl | rfl <;> decide

end IsQuote

/-! ### Readers -/

namespace Lexeme

theorem both_literal (a : Text) (reader : Text → Option Nat) (cs : Text) :
    both (literal a) reader (a ++ cs) = (reader cs).map (a.length + ·) := by
  rw [both, literal, if_pos (by simp), Option.bind_some, List.drop_left]

theorem literal_eq_some_iff {word cs : Text} {n : Nat} :
    literal word cs = some n ↔ ∃ rest, cs = word ++ rest ∧ n = word.length := by
  rw [literal]
  constructor
  · intro h
    split at h
    · next hprefix =>
      obtain ⟨rest, rfl⟩ := List.isPrefixOf_iff_prefix.1 hprefix
      exact ⟨rest, rfl, (Option.some.inj h).symm⟩
    · cases h
  · rintro ⟨rest, rfl, rfl⟩
    rw [if_pos (by simp)]

theorem both_eq_some_iff {first second : Text → Option Nat} {cs : Text} {n : Nat} :
    both first second cs = some n ↔
      ∃ k m, first cs = some k ∧ second (cs.drop k) = some m ∧ n = k + m := by
  simp only [both, Option.bind_eq_some_iff, Option.map_eq_some_iff]
  constructor
  · rintro ⟨k, hk, m, hm, rfl⟩
    exact ⟨k, m, hk, hm, rfl⟩
  · rintro ⟨k, m, hk, hm, rfl⟩
    exact ⟨k, hk, m, hm, rfl⟩

/-- A text starts with the run of the characters that pass a test. -/
theorem exists_run (p : Char → Bool) (cs : Text) :
    ∃ w rest, cs = w ++ rest ∧ (∀ c ∈ w, p c = true) ∧ w.length = run p cs :=
  ⟨_, _, List.takeWhile_append_dropWhile.symm, List.all_eq_true.1 List.all_takeWhile, rfl⟩

theorem run_append_of_all {p : Char → Bool} {w : Text} (hw : ∀ c ∈ w, p c = true) {d : Char}
    (hd : p d = false) (cs : Text) : run p (w ++ d :: cs) = w.length := by
  rw [run_append_cons hd, run, List.takeWhile_eq_self_iff.2 hw]

/-- A reader that takes only characters that pass a test. -/
def Takes (p : Char → Bool) (reader : Text → Option Nat) : Prop :=
  ∀ cs n, reader cs = some n → ∃ w rest, cs = w ++ rest ∧ n = w.length ∧ ∀ c ∈ w, p c = true

theorem takes_atLeast {p p' : Char → Bool} (hp : ∀ c, p' c = true → p c = true) (k : Nat) :
    Takes p (atLeast k p') := by
  intro cs n h
  obtain ⟨w, rest, rfl, hw, hlength⟩ := exists_run p' cs
  rw [atLeast, ← hlength] at h
  split at h
  · cases h
    exact ⟨w, rest, rfl, rfl, fun c hc => hp c (hw c hc)⟩
  · cases h

theorem takes_literal {p : Char → Bool} {word : Text} (hword : word.all p = true) :
    Takes p (literal word) := by
  intro cs n h
  obtain ⟨rest, rfl, rfl⟩ := literal_eq_some_iff.1 h
  exact ⟨word, rest, rfl, rfl, List.all_eq_true.1 hword⟩

theorem takes_oneOf {p : Char → Bool} {words : List String}
    (h : ∀ word ∈ words, word.toList.all p = true) : Takes p (oneOf words) := by
  intro cs n hn
  obtain ⟨word, hword, hn⟩ := List.exists_of_findSome?_eq_some hn
  exact takes_literal (h word hword) cs n hn

theorem Takes.both {p : Char → Bool} {first second : Text → Option Nat} (h1 : Takes p first)
    (h2 : Takes p second) : Takes p (both first second) := by
  intro cs n h
  obtain ⟨k, m, hk, hm, rfl⟩ := both_eq_some_iff.1 h
  obtain ⟨w, rest, rfl, rfl, hw⟩ := h1 cs k hk
  rw [List.drop_left] at hm
  obtain ⟨w', rest', rfl, rfl, hw'⟩ := h2 rest m hm
  exact ⟨w ++ w', rest', (List.append_assoc _ _ _).symm, List.length_append.symm,
    List.forall_mem_append.2 ⟨hw, hw'⟩⟩

theorem Takes.or {p : Char → Bool} {first second : Text → Option Nat} (h1 : Takes p first)
    (h2 : Takes p second) : Takes p fun cs => (first cs).or (second cs) := by
  intro cs n h
  rcases Option.or_eq_some_iff.1 h with h | ⟨-, h⟩
  · exact h1 cs n h
  · exact h2 cs n h

theorem hashComment_eq_some_iff {cs : Text} {n : Nat} :
    hashComment cs = some n ↔
      ∃ d rest, cs = '#' :: d :: rest ∧ isBlank d = true ∧
        n = run (fun c => !isLineEnd c) rest + 2 := by
  simp only [hashComment, both_eq_some_iff, literal_eq_some_iff]
  constructor
  · rintro ⟨_, _, ⟨rest, rfl, rfl⟩, ⟨_, m, hblank, hm, rfl⟩, rfl⟩
    simp only [List.length_singleton, List.singleton_append, List.drop_succ_cons,
      List.drop_zero] at hblank hm ⊢
    cases rest with
    | nil => simp at hblank
    | cons d rest =>
      split at hblank
      · next hd =>
        cases hblank
        simp only [atLeast, Nat.zero_le, if_true, Option.some.injEq, List.drop_succ_cons,
          List.drop_zero] at hm
        exact ⟨d, rest, rfl, hd, by omega⟩
      · cases hblank
  · rintro ⟨d, rest, rfl, hd, rfl⟩
    refine ⟨1, run (fun c => !isLineEnd c) rest + 1, ⟨_, rfl, rfl⟩,
      ⟨1, _, ?_, ?_, Nat.add_comm _ _⟩, by omega⟩
    · simp [hd]
    · simp [atLeast]

theorem annotation_eq_some_iff {cs : Text} {n : Nat} :
    annotation cs = some n ↔
      ∃ inner rest, cs = '[' :: inner ++ ']' :: rest ∧
        (∀ c ∈ inner, (!(c == ']' || isLineEnd c)) = true) ∧ n = inner.length + 2 := by
  simp only [both_eq_some_iff, literal_eq_some_iff, annotation]
  constructor
  · rintro ⟨_, _, ⟨rest, rfl, rfl⟩, ⟨k, _, hk, ⟨rest', hrest', rfl⟩, rfl⟩, rfl⟩
    obtain ⟨inner, behind, rfl, hinner, hlength⟩ :=
      exists_run (fun c => !(c == ']' || isLineEnd c)) rest
    simp only [List.length_singleton, List.singleton_append, List.drop_succ_cons, List.drop_zero,
      atLeast, Nat.zero_le, if_true, Option.some.injEq] at hk hrest' ⊢
    rw [← hk, ← hlength, List.drop_left] at hrest'
    exact ⟨inner, rest', by rw [hrest']; rfl, hinner, by omega⟩
  · rintro ⟨inner, rest, rfl, hinner, rfl⟩
    have hrun : run (fun c => !(c == ']' || isLineEnd c)) (inner ++ ']' :: rest) =
        inner.length := by
      rw [run_append_cons (by decide), run, List.takeWhile_eq_self_iff.2 hinner]
    refine ⟨1, inner.length + 1, ⟨_, rfl, rfl⟩,
      ⟨inner.length, 1, ?_, ⟨rest, ?_, rfl⟩, rfl⟩, by omega⟩
    · exact (if_pos (Nat.zero_le _)).trans (congrArg some hrun)
    · simp

/-- An annotation that is left open on its line is none. -/
theorem annotation_append {a : Text} {q : Char} (hq : IsQuote q) :
    annotation (a ++ [q, '\n']) = annotation a := by
  refine Option.ext fun n => ?_
  rw [annotation_eq_some_iff, annotation_eq_some_iff]
  constructor
  · rintro ⟨inner, rest, heq, hinner, rfl⟩
    have hprefix : '[' :: inner ++ [']'] <+: a ++ [q] ++ '\n' :: [] := by
      rw [List.append_assoc, List.singleton_append, heq]
      exact ⟨rest, by simp⟩
    have hnewline : '\n' ∉ '[' :: inner ++ [']'] := by
      intro hmem
      simp only [List.cons_append, List.mem_cons, List.mem_append, List.not_mem_nil,
        or_false] at hmem
      rcases hmem with h | h | h
      · cases h
      · exact absurd (hinner _ h) (by decide)
      · cases h
    rw [prefix_append_cons_iff hnewline, List.prefix_concat_iff] at hprefix
    rcases hprefix with hwhole | ⟨behind, rfl⟩
    · -- the quote is not the closing bracket
      have hlast := congrArg List.getLast? hwhole
      simp only [List.getLast?_append, List.getLast?_singleton, Option.some_or,
        Option.some.injEq] at hlast
      rcases hq with rfl | rfl <;> cases hlast
    · exact ⟨inner, behind, by simp, hinner, rfl⟩
  · rintro ⟨inner, rest, rfl, hinner, rfl⟩
    exact ⟨inner, rest ++ [q, '\n'], by simp, hinner, rfl⟩

end Lexeme

/-! ### Comments in a text -/

/-- A character that neither starts a comment nor a quote. -/
def isInert (c : Char) : Bool := !(isBlank c || c == '#' || c == '\'' || c == '"')

theorem holdsComment_inert {w : Text} (h : ∀ c ∈ w, isInert c = true) (cs : Text) :
    holdsComment (w ++ cs) = holdsComment cs := by
  induction w with
  | nil => rfl
  | cons c w ih =>
    obtain ⟨hc, hw⟩ := List.forall_mem_cons.1 h
    simp only [isInert, Bool.not_eq_true', Bool.or_eq_false_iff, beq_eq_false_iff_ne] at hc
    rw [List.cons_append, holdsComment, hc.1.1.1, if_neg (by simp), if_neg hc.1.1.2, ih hw]

/-- The characters of a class without blanks, number signs and quotes are inert. -/
theorem isInert_of {p : Char → Bool} (hp : [' ', '\t', '#', '\'', '"'].any p = false)
    {c : Char} (h : p c = true) : isInert c = true := by
  by_contra hnot
  simp only [isInert, isBlank, Bool.not_eq_true', Bool.not_eq_false, Bool.or_eq_true,
    beq_iff_eq] at hnot
  have hmem : c ∈ [' ', '\t', '#', '\'', '"'] := by
    simpa only [List.mem_cons, List.not_mem_nil, or_false, or_assoc] using hnot
  exact List.any_eq_false.1 hp c hmem h

theorem isInert_of_isWord {c : Char} (h : isWord c = true) : isInert c = true :=
  isInert_of (by decide) h

/-- Of a run of blanks only the end decides. -/
theorem holdsComment_blanks {w : Text} (hne : w ≠ []) (h : ∀ c ∈ w, isBlank c = true) (cs : Text) :
    holdsComment (w ++ cs) = ((hashComment cs).isSome || holdsComment cs) := by
  induction w with
  | nil => exact absurd rfl hne
  | cons c w ih =>
    obtain ⟨hc, hw⟩ := List.forall_mem_cons.1 h
    rw [List.cons_append, holdsComment, if_pos hc]
    cases w with
    | nil => rfl
    | cons d w =>
      have hd := hw d (by simp)
      have hnone : hashComment (d :: w ++ cs) = none := by
        refine Option.eq_none_iff_forall_ne_some.2 fun n hn => ?_
        obtain ⟨_, _, heq, -⟩ := hashComment_eq_some_iff.1 hn
        obtain ⟨rfl, -⟩ := List.cons.inj heq
        exact absurd hd (by decide)
      rw [hnone, ih (by simp) hw]
      rfl

/-! ### One lexeme -/

/-- A number of characters makes a part of a text before a quote that decides nothing about its
comments, or a comment that takes the quote too. -/
def EndsWithin (body : Text) (n : Nat) : Prop :=
  (n = body.length + 1 ∧ holdsComment body = true) ∨
    ∃ w rest, body = w ++ rest ∧ w ≠ [] ∧ n = w.length ∧ holdsComment rest = holdsComment body

variable {g : Grammar} {q : Char}

/-- A quote behind the text does not matter to whether a comment starts, and the newline behind the
quote is where a comment ends. -/
theorem hashComment_append {a : Text} (hq : IsQuote q) (ha : Unquoted a) :
    hashComment (a ++ [q, '\n']) =
      if (hashComment a).isSome then some (a.length + 1) else none := by
  split
  · next h =>
    obtain ⟨n, hn⟩ := Option.isSome_iff_exists.1 h
    obtain ⟨d, rest, rfl, hd, -⟩ := hashComment_eq_some_iff.1 hn
    have hall : ∀ c ∈ rest ++ [q], (!isLineEnd c) = true := by
      refine List.forall_mem_append.2 ⟨(ha.of_append (a := ['#', d])).2.isLineEnd, ?_⟩
      rw [List.forall_mem_singleton]
      rw [hq.isLineEnd]
      rfl
    have hrun : run (fun c => !isLineEnd c) (rest ++ [q] ++ '\n' :: []) = rest.length + 1 := by
      rw [run_append_cons (by decide), run, List.takeWhile_eq_self_iff.2 hall, List.length_append,
        List.length_singleton]
    rw [List.append_assoc] at hrun
    exact hashComment_eq_some_iff.2 ⟨d, rest ++ [q, '\n'], rfl, hd, congrArg (· + 2) hrun.symm⟩
  · next h =>
    refine Option.eq_none_iff_forall_ne_some.2 fun n hn => h ?_
    obtain ⟨d, rest, heq, hd, -⟩ := hashComment_eq_some_iff.1 hn
    cases a with
    | nil =>
      obtain ⟨rfl, -⟩ := List.cons.inj heq
      exact absurd rfl hq.ne_sign
    | cons x a =>
      obtain ⟨rfl, hbehind⟩ := List.cons.inj heq
      cases a with
      | nil =>
        obtain ⟨rfl, -⟩ := List.cons.inj hbehind
        rw [hq.isBlank] at hd
        cases hd
      | cons y a =>
        obtain ⟨rfl, -⟩ := List.cons.inj hbehind
        exact Option.isSome_iff_exists.2 ⟨_, hashComment_eq_some_iff.2 ⟨_, a, rfl, hd, rfl⟩⟩

/-- Blanks are a lexeme of their own unless a comment follows. -/
theorem extent_blank (hq : IsQuote q) {c : Char} {cs : Text} (hc : isBlank c = true)
    (h : Unquoted (c :: cs)) : EndsWithin (c :: cs) (g.extent false (c :: cs ++ [q, '\n'])) := by
  have hrules : Rule.all.filter (Rule.canStart false c) = [.trailingComment, .blanks, .other] := by
    rw [isBlank, Bool.or_eq_true, beq_iff_eq, beq_iff_eq] at hc
    rcases hc with rfl | rfl <;> decide
  obtain ⟨w, rest, hbody, hw, hlength⟩ := exists_run isBlank (c :: cs)
  have hpos : 1 ≤ w.length := by
    rw [hlength, run, List.takeWhile_cons_of_pos hc, List.length_cons]
    exact Nat.succ_pos _
  have hblanks : atLeast 1 isBlank (c :: cs ++ [q, '\n']) = some w.length := by
    rw [atLeast, run_append_cons hq.isBlank, ← hlength, if_pos hpos]
  have hcomment : both (atLeast 1 isBlank) hashComment (c :: cs ++ [q, '\n']) =
      if (hashComment rest).isSome then some (w.length + (rest.length + 1)) else none := by
    rw [both, hblanks, Option.bind_some, hbody, List.append_assoc, List.drop_left,
      hashComment_append hq (hbody ▸ h).of_append.2]
    split <;> rfl
  have hholds := holdsComment_blanks (List.ne_nil_of_length_pos hpos) hw rest
  obtain ⟨n, hn, hextent⟩ := g.exists_extent false c (cs ++ [q, '\n'])
  rw [hrules, ← List.cons_append] at hn
  simp only [List.findSome?_cons, Rule.extent?, hcomment, hblanks] at hn
  rw [List.cons_append, hextent, hbody]
  by_cases hsome : (hashComment rest).isSome = true
  · rw [hsome, Bool.true_or] at hholds
    rw [if_pos hsome] at hn
    cases hn
    exact Or.inl ⟨by rw [List.length_append]; omega, hholds⟩
  · rw [Bool.eq_false_iff.2 hsome, Bool.false_or] at hholds
    rw [if_neg hsome] at hn
    cases hn
    exact Or.inr ⟨w, rest, rfl, List.ne_nil_of_length_pos hpos, by omega, hholds.symm⟩

/-- A number sign without a name and without another number sign has nothing that belongs to it. -/
theorem hashed_eq_zero {cs : Text} (hsign : cs.head? ≠ some '#')
    (hname : both (atLeast 1 isWord) annotation cs = none) : hashed cs = 0 := by
  rw [hashed, if_neg hsign, hname, Option.getD_none]

theorem holdsComment_hash (cs : Text) :
    holdsComment ('#' :: cs) = holdsComment (cs.drop (hashed cs)) := by
  rw [holdsComment, if_neg (by decide), if_pos rfl]

/-- A name without an annotation. -/
theorem holdsComment_name {w : Text} (hw : ∀ c ∈ w, isWord c = true) {cs : Text}
    (hcs : (both (atLeast 1 isWord) annotation (w ++ cs)) = none)
    (hsign : (w ++ cs).head? ≠ some '#') :
    holdsComment ('#' :: (w ++ cs)) = holdsComment cs := by
  rw [holdsComment_hash, hashed_eq_zero hsign hcs, List.drop_zero,
    holdsComment_inert fun c hc => isInert_of_isWord (hw c hc)]

theorem endsWithin_argumentTag (hg : ∀ name ∈ g.argumentTags, ∀ c ∈ name, isWord c = true)
    (hq : IsQuote q) {cs : Text} {n : Nat}
    (h : Rule.extent? g false ('#' :: (cs ++ [q, '\n'])) .argumentTag = some n) :
    EndsWithin ('#' :: cs) n := by
  obtain ⟨m, hm, rfl⟩ := Option.map_eq_some_iff.1
    ((both_literal ['#'] _ (cs ++ [q, '\n'])).symm.trans h)
  obtain ⟨name, hname, hm⟩ := List.exists_of_findSome?_eq_some hm
  simp only [both_eq_some_iff, literal_eq_some_iff] at hm
  obtain ⟨_, _, ⟨rest, hrest, rfl⟩, ⟨rest', hrest', rfl⟩, rfl⟩ := hm
  rw [hrest, List.drop_left] at hrest'
  have hprefix : name ++ ['{'] <+: cs ++ q :: ['\n'] := ⟨rest', by rw [hrest, hrest']; simp⟩
  have hquote : q ∉ name ++ ['{'] := by
    intro hmem
    rcases List.mem_append.1 hmem with hmem | hmem
    · have hword := hg name hname q hmem
      rw [hq.isWord] at hword
      cases hword
    · rw [List.mem_singleton] at hmem
      rcases hq with rfl | rfl <;> cases hmem
  obtain ⟨behind, rfl⟩ := (prefix_append_cons_iff hquote _ _).1 hprefix
  have hnone : both (atLeast 1 isWord) annotation (name ++ '{' :: behind) = none := by
    refine Option.eq_none_iff_forall_ne_some.2 fun k hk => ?_
    obtain ⟨k', _, hrun, hbrackets, -⟩ := both_eq_some_iff.1 hk
    rw [atLeast, run_append_of_all (hg name hname) (by decide)] at hrun
    split at hrun
    · cases hrun
      rw [List.drop_left] at hbrackets
      obtain ⟨_, _, heq, -⟩ := annotation_eq_some_iff.1 hbrackets
      cases heq
    · cases hrun
  have hsign : (name ++ '{' :: behind).head? ≠ some '#' := by
    cases hname' : name with
    | nil => simp
    | cons c name' =>
      have hword := hg name hname c (by simp [hname'])
      rintro hhead
      cases Option.some.inj hhead
      exact absurd hword (by decide)
  refine Or.inr ⟨'#' :: name ++ ['{'], behind, by simp, by simp, by simp; omega, ?_⟩
  rw [List.append_assoc, List.singleton_append, holdsComment_name (hg name hname) hnone hsign]
  exact (holdsComment_inert (w := ['{']) (List.forall_mem_singleton.2 rfl) behind).symm

theorem endsWithin_hashName (hq : IsQuote q) {cs : Text} {n : Nat}
    (h : Rule.extent? g false ('#' :: (cs ++ [q, '\n'])) .hashName = some n) :
    EndsWithin ('#' :: cs) n := by
  obtain ⟨m, hm, rfl⟩ := Option.map_eq_some_iff.1
    ((both_literal ['#'] _ (cs ++ [q, '\n'])).symm.trans h)
  obtain ⟨k, a, hk, ha, rfl⟩ := both_eq_some_iff.1 hm
  obtain ⟨w, rest, rfl, hw, hlength⟩ := exists_run isWord cs
  have hrun : atLeast 1 isWord (w ++ rest) = some k := by
    rwa [atLeast, run_append_cons hq.isWord] at hk
  rw [atLeast, ← hlength] at hrun
  split at hrun
  · next hpos =>
    cases hrun
    rw [List.append_assoc, List.drop_left, Lexeme.optional, annotation_append hq] at ha
    cases ha
    have hsign : (w ++ rest).head? ≠ some '#' := by
      cases w with
      | nil => cases hpos
      | cons c w =>
        rintro hhead
        cases Option.some.inj hhead
        exact absurd (hw '#' (by simp)) (by decide)
    have hboth : ∀ found, annotation rest = found →
        both (atLeast 1 isWord) annotation (w ++ rest) = found.map (w.length + ·) := by
      rintro _ rfl
      rw [both, atLeast, ← hlength, if_pos hpos, Option.bind_some, List.drop_left]
    cases hbrackets : annotation rest with
    | none =>
      refine Or.inr ⟨'#' :: w, rest, rfl, by simp, by simp; omega, ?_⟩
      exact (holdsComment_name hw (hboth _ hbrackets) hsign).symm
    | some a =>
      have hname := hboth _ hbrackets
      obtain ⟨inner, behind, rfl, -, rfl⟩ := annotation_eq_some_iff.1 hbrackets
      refine Or.inr ⟨'#' :: w ++ '[' :: inner ++ [']'], behind, by simp, by simp,
        by simp; omega, ?_⟩
      rw [holdsComment_hash, hashed, if_neg hsign, hname, Option.map_some, Option.getD_some]
      congr 1
      simp
  · cases hrun

theorem holdsComment_mark {c : Char} (hc : c = '#' ∨ isInert c = true) (hword : isWord c = false)
    (cs : Text) : holdsComment ('#' :: c :: cs) = holdsComment cs := by
  rw [holdsComment_hash]
  rcases hc with rfl | hc
  · rfl
  · have hnone : both (atLeast 1 isWord) annotation (c :: cs) = none := by
      rw [both, (startsWith_atLeast (by decide) isWord) c cs hword, Option.bind_none]
    have hsign : (c :: cs).head? ≠ some '#' := by
      rintro hhead
      cases Option.some.inj hhead
      cases hc
    rw [hashed_eq_zero hsign hnone, List.drop_zero]
    exact holdsComment_inert (w := [c]) (by simpa using hc) cs

theorem endsWithin_hashMark (hq : IsQuote q) {cs : Text} {n : Nat}
    (h : Rule.extent? g false ('#' :: (cs ++ [q, '\n'])) .hashMark = some n) :
    EndsWithin ('#' :: cs) n := by
  obtain ⟨word, hword, hn⟩ := List.exists_of_findSome?_eq_some h
  obtain ⟨rest, hrest, rfl⟩ := literal_eq_some_iff.1 hn
  obtain ⟨mark, hlist, hinert, hnotWord, hsingle, hdouble⟩ : ∃ mark, word.toList = ['#', mark] ∧
      (mark = '#' ∨ isInert mark = true) ∧ isWord mark = false ∧ mark ≠ '\'' ∧ mark ≠ '"' := by
    simp only [List.mem_cons, List.not_mem_nil, or_false] at hword
    rcases hword with rfl | rfl | rfl | rfl | rfl | rfl | rfl <;> exact ⟨_, rfl, by decide⟩
  rw [hlist, List.cons_append, List.singleton_append] at hrest
  obtain ⟨-, hbehind⟩ := List.cons.inj hrest
  cases cs with
  | nil =>
    obtain ⟨rfl, -⟩ := List.cons.inj hbehind
    exact absurd hq (not_or.2 ⟨hsingle, hdouble⟩)
  | cons c cs =>
    obtain ⟨rfl, -⟩ := List.cons.inj hbehind
    exact Or.inr ⟨['#', c], cs, rfl, by simp, by rw [hlist],
      (holdsComment_mark hinert hnotWord cs).symm⟩

/-- A number sign that no rule takes with what follows it is a lexeme of its own. -/
theorem endsWithin_hash_other (hq : IsQuote q) {cs : Text}
    (hname : Rule.extent? g false ('#' :: (cs ++ [q, '\n'])) .hashName = none)
    (hmark : Rule.extent? g false ('#' :: (cs ++ [q, '\n'])) .hashMark = none) :
    EndsWithin ('#' :: cs) 1 := by
  have hnone : both (atLeast 1 isWord) annotation cs = none := by
    have hname' := Option.map_eq_none_iff.1
      ((both_literal ['#'] _ (cs ++ [q, '\n'])).symm.trans hname)
    rw [both, atLeast, run_append_cons hq.isWord] at hname'
    rw [both, atLeast]
    split at hname'
    · cases hname'
    · rw [if_neg (by assumption), Option.bind_none]
  have hsign : cs.head? ≠ some '#' := by
    intro hhead
    obtain ⟨cs, rfl⟩ := List.head?_eq_some_iff.1 hhead
    cases hmark
  refine Or.inr ⟨['#'], cs, rfl, by simp, rfl, ?_⟩
  rw [holdsComment_hash, hashed_eq_zero hsign hnone, List.drop_zero]

theorem EndsWithin.pos {body : Text} {n : Nat} (h : EndsWithin body n) : 1 ≤ n := by
  rcases h with ⟨rfl, -⟩ | ⟨w, rest, -, hne, rfl, -⟩
  · exact Nat.succ_pos _
  · exact List.length_pos_iff.2 hne

theorem extent_hash (hg : ∀ name ∈ g.argumentTags, ∀ c ∈ name, isWord c = true)
    (hq : IsQuote q) (cs : Text) :
    EndsWithin ('#' :: cs) (g.extent false ('#' :: cs ++ [q, '\n'])) := by
  have hrules : Rule.all.filter (Rule.canStart false '#') =
      [.argumentTag, .hashName, .hashMark, .other] := by decide
  obtain ⟨n, hn, hextent⟩ := g.exists_extent false '#' (cs ++ [q, '\n'])
  have hwithin : EndsWithin ('#' :: cs) n := by
    rw [hrules, List.findSome?_cons] at hn
    cases htag : Rule.extent? g false ('#' :: (cs ++ [q, '\n'])) .argumentTag with
    | some k =>
      rw [htag] at hn
      exact endsWithin_argumentTag hg hq (htag.trans hn)
    | none =>
      rw [htag, List.findSome?_cons] at hn
      cases hname : Rule.extent? g false ('#' :: (cs ++ [q, '\n'])) .hashName with
      | some k =>
        rw [hname] at hn
        exact endsWithin_hashName hq (hname.trans hn)
      | none =>
        rw [hname, List.findSome?_cons] at hn
        cases hmark : Rule.extent? g false ('#' :: (cs ++ [q, '\n'])) .hashMark with
        | some k =>
          rw [hmark] at hn
          exact endsWithin_hashMark hq (hmark.trans hn)
        | none =>
          rw [hmark] at hn
          cases hn
          exact endsWithin_hash_other hq hname hmark
  rw [List.cons_append, hextent, Nat.max_eq_right hwithin.pos]
  exact hwithin

/-- Words, numbers and marks have nothing of a comment. -/
theorem extent_inert (hq : IsQuote q) {c : Char} {cs : Text} (hc : isInert c = true)
    (h : Unquoted (c :: cs)) : EndsWithin (c :: cs) (g.extent false (c :: cs ++ [q, '\n'])) := by
  obtain ⟨n, hn, hextent⟩ := g.exists_extent false c (cs ++ [q, '\n'])
  obtain ⟨rule, hrule, hn⟩ := List.exists_of_findSome?_eq_some hn
  have hstart := (List.mem_filter.1 hrule).2
  have hdigits : ∀ k, Takes isInert (atLeast k Char.isDigit) := takes_atLeast fun _ =>
    isInert_of (by decide)
  have hpoint : Takes isInert (literal ['.']) := takes_literal (by decide)
  have htaken : ∃ w rest, c :: (cs ++ [q, '\n']) = w ++ rest ∧ n = w.length ∧
      ∀ d ∈ w, isInert d = true := by
    cases rule with
    | conditionalAnswer => exact takes_oneOf (by decide) _ n hn
    | number =>
      exact (((hdigits 1).both (hpoint.both (hdigits 1))).or (hdigits 1)).or
        (hpoint.both (hdigits 1)) _ n hn
    | word => exact takes_atLeast (fun _ => isInert_of_isWord) 1 _ n hn
    | other =>
      cases hn
      exact ⟨[c], _, rfl, rfl, List.forall_mem_singleton.2 hc⟩
    | _ =>
      -- no other rule can start with the character
      simp only [isInert, Bool.not_eq_true', Bool.or_eq_false_iff, beq_eq_false_iff_ne] at hc
      have hnot := h c (by simp)
      simp_all [Rule.canStart]
  obtain ⟨w, rest, hbody, rfl, hw⟩ := htaken
  have hquote : q ∉ w := by
    intro hmem
    have hinert := hw q hmem
    rcases hq with rfl | rfl <;> cases hinert
  obtain ⟨behind, hbehind⟩ := (prefix_append_cons_iff hquote (c :: cs) ['\n']).1 ⟨rest, hbody.symm⟩
  rw [List.cons_append, hextent]
  cases w with
  | nil =>
    exact Or.inr ⟨[c], cs, rfl, by simp, rfl,
      (holdsComment_inert (List.forall_mem_singleton.2 hc) cs).symm⟩
  | cons d w =>
    rw [← hbehind]
    exact Or.inr ⟨d :: w, behind, rfl, by simp, Nat.max_eq_right (by simp),
      (holdsComment_inert hw behind).symm⟩

/-- **One lexeme of a text before a quote ends inside it, unless it is a comment.** -/
theorem extent_unquoted (hg : ∀ name ∈ g.argumentTags, ∀ c ∈ name, isWord c = true)
    (hq : IsQuote q) {body : Text} (hne : body ≠ []) (h : Unquoted body) :
    EndsWithin body (g.extent false (body ++ [q, '\n'])) := by
  cases body with
  | nil => exact absurd rfl hne
  | cons c cs =>
    by_cases hblank : isBlank c = true
    · exact extent_blank hq hblank h
    · by_cases hsign : c = '#'
      · subst hsign
        exact extent_hash hg hq cs
      · refine extent_inert hq ?_ h
        have hquotes := h c (by simp)
        simp_all [isInert]

/-! ### All lexemes -/

theorem extent_newline (g : Grammar) : g.extent false ['\n'] = 1 :=
  Grammar.extent_of_rules [.newline, .other] (by decide) rfl (Nat.le_refl 1)

theorem scan_newline (g : Grammar) (pos : Nat) : g.scan pos false ['\n'] = [⟨pos, ['\n']⟩] := by
  have hscan : g.scan pos false (['\n'] ++ []) = _ :=
    Grammar.scan_of_extent (List.cons_ne_nil '\n' []) (extent_newline g) pos
  rw [Grammar.scan] at hscan
  exact hscan

/-- A quote before anything but two more of its kind is a lexeme of its own. -/
theorem extent_quote (hq : IsQuote q) {cs : Text} (hcs : ¬ [q, q] <+: cs) :
    g.extent false (q :: cs) = 1 := by
  have hrules : Rule.all.filter (Rule.canStart false q) = [.tripleQuote, .other] := by
    rcases hq with rfl | rfl <;> decide
  have hnone : Rule.extent? g false (q :: cs) .tripleQuote = none := by
    refine Option.eq_none_iff_forall_ne_some.2 fun k hk => ?_
    obtain ⟨word, hword, hk⟩ := List.exists_of_findSome?_eq_some hk
    obtain ⟨rest, hrest, -⟩ := literal_eq_some_iff.1 hk
    obtain ⟨d, hlist⟩ : ∃ d, word.toList = [d, d, d] := by
      simp only [List.mem_cons, List.not_mem_nil, or_false] at hword
      rcases hword with rfl | rfl <;> exact ⟨_, rfl⟩
    rw [hlist] at hrest
    obtain ⟨rfl, hbehind⟩ := List.cons.inj hrest
    exact hcs ⟨rest, hbehind.symm⟩
  refine Grammar.extent_of_rules _ hrules ?_ (Nat.le_refl 1)
  rw [List.findSome?_cons, hnone]
  rfl

/-- **The closing quote of a string is a lexeme of its own if and only if no comment stands before
it.** Before it no lexeme ends the string. -/
theorem exists_scan_unquoted (hg : ∀ name ∈ g.argumentTags, ∀ c ∈ name, isWord c = true)
    (hq : IsQuote q) {body : Text} (h : Unquoted body) (pos : Nat) :
    ∃ inside closing, g.scan pos false (body ++ [q, '\n']) = inside ++ closing ∧
      closing.map Lexeme.text = (if holdsComment body then [] else [[q]]) ++ [['\n']] ∧
      ∀ l ∈ inside, l.text ≠ [q] ∧ '\n' ∉ l.text := by
  induction hlength : body.length using Nat.strongRecOn generalizing body pos with
  | _ length ih =>
    have hends : ∀ w : Text, '\n' ∉ w → (w.getLast? == some '\n') = false := fun w hw =>
      beq_eq_false_iff_ne.2 fun hlast => hw (List.mem_of_getLast? hlast)
    by_cases hne : body = []
    · subst hne
      have hquote : g.extent false [q, '\n'] = 1 := extent_quote hq fun hprefix =>
        absurd hprefix.length_le (by simp)
      have hscan := Grammar.scan_character hq.ne_newline hquote pos
      rw [scan_newline] at hscan
      exact ⟨[], _, hscan, by rw [holdsComment]; rfl, by simp⟩
    · rcases extent_unquoted hg hq hne h with
        ⟨hextent, hcomment⟩ | ⟨w, rest, rfl, hw, hextent, hrest⟩
      · -- the comment goes on to the newline
        have htaken : '\n' ∉ body ++ [q] := by
          simpa using ⟨h.newline_not_mem, Ne.symm hq.ne_newline⟩
        rw [show body ++ [q, '\n'] = body ++ [q] ++ ['\n'] by simp] at hextent ⊢
        have hscan := Grammar.scan_of_extent (by simp) (hextent.trans (by simp)) pos
        rw [hends _ htaken, scan_newline] at hscan
        refine ⟨[_], [_], hscan, by rw [hcomment]; rfl, ?_⟩
        rw [List.forall_mem_singleton]
        exact ⟨by simpa using hne, htaken⟩
      · have hlt : rest.length < length := by
          have := List.length_pos_iff.2 hw
          rw [List.length_append] at hlength
          omega
        obtain ⟨hleft, hright⟩ := h.of_append
        rw [List.append_assoc] at hextent ⊢
        have hscan := Grammar.scan_of_extent hw hextent pos
        rw [hends w (hleft.newline_not_mem)] at hscan
        obtain ⟨inside, closing, hinside, hclosing, hall⟩ := ih _ hlt hright _ rfl
        rw [hinside] at hscan
        refine ⟨_ :: inside, closing, hscan, by rw [hclosing, hrest], ?_⟩
        refine List.forall_mem_cons.2 ⟨⟨?_, hleft.newline_not_mem⟩, hall⟩
        rintro rfl
        exact hq.not_mem hleft (by simp)

end TemplateStyler
