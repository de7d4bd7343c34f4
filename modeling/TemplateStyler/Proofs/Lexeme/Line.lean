import TemplateStyler.Proofs.Lexeme.Names

/-!
# Rules and the ends of lines

No rule sees what stands after the newline of its line, and only three of them can take the newline
at all. So the lexemes of a line depend on the line alone, as long as no name of the registry runs
over the end of a line (`Registry.OnOneLine`).

* `LineBound k reader`: on a line and anything after it the reader takes what it takes on the line
  alone, and no more than the characters before the newline and `k` others.
* `Rule.lineBound`: every rule is bound by its line, with the newline for the rules of
  `Rule.reach` `1`. `Grammar.extent_line` says the same of the length of the next lexeme.
* `Grammar.lexeme_with_newline`: a lexeme with the newline is the newline itself or the separator
  of versions, by the rule that takes it (`Grammar.rule_of_newline`).
-/

namespace TemplateStyler

/-! ### Names on one line -/

/-- No name that the rules look for contains a newline. -/
structure Registry.OnOneLine (r : Registry) : Prop where
  argumentTags : ∀ name ∈ r.argumentTags, '\n' ∉ name
  headerKeys : ∀ name ∈ r.headerKeys, '\n' ∉ name

namespace Lexeme

open Text

/-! ### Readers bound by their line -/

/-- On a line and what follows it a reader takes what it takes on the line alone, and at most `k`
characters more than stand before the newline. -/
def BoundOn (k : Nat) (reader : List Char → Option Nat) (line rest : List Char) : Prop :=
  reader (line ++ '\n' :: rest) = reader (line ++ ['\n']) ∧
    ∀ n, reader (line ++ '\n' :: rest) = some n → n ≤ line.length + k

/-- A reader that sees no further than the newline of its line. -/
def LineBound (k : Nat) (reader : List Char → Option Nat) : Prop :=
  ∀ line rest, '\n' ∉ line → BoundOn k reader line rest

theorem LineBound.mono {k l : Nat} {reader : List Char → Option Nat} (h : LineBound k reader)
    (hkl : k ≤ l) : LineBound l reader := by
  intro line rest hline
  obtain ⟨heq, hle⟩ := h line rest hline
  exact ⟨heq, fun n hn => by have := hle n hn; omega⟩

theorem takeWhile_append_cons {p : Char → Bool} {d : Char} (hd : p d = false)
    (line rest : List Char) : (line ++ d :: rest).takeWhile p = line.takeWhile p := by
  induction line with
  | nil => simp [hd]
  | cons c line ih => by_cases hc : p c <;> simp [hc, ih]

/-- A run ends at the first character that fails the test. -/
theorem run_append_cons {p : Char → Bool} {d : Char} (hd : p d = false) (line rest : List Char) :
    run p (line ++ d :: rest) = run p line := by
  rw [run, takeWhile_append_cons hd, run]

theorem run_le_length (p : Char → Bool) (line : List Char) : run p line ≤ line.length :=
  (List.takeWhile_sublist p).length_le

theorem lineBound_atLeast {p : Char → Bool} (hp : p '\n' = false) (n : Nat) :
    LineBound 0 (atLeast n p) := by
  intro line rest _
  refine ⟨by simp only [atLeast, run_append_cons hp], fun m hm => ?_⟩
  have := run_le_length p line
  simp only [atLeast, run_append_cons hp] at hm
  split at hm
  · cases hm
    omega
  · cases hm

/-- A word ends before a character that it lacks. -/
theorem prefix_append_cons_iff {word : List Char} {d : Char} (hword : d ∉ word)
    (line rest : List Char) : word <+: line ++ d :: rest ↔ word <+: line := by
  induction word generalizing line with
  | nil => simp
  | cons c word ih =>
    simp only [List.mem_cons, not_or] at hword
    cases line with
    | nil => simp [Ne.symm hword.1]
    | cons e line => simp [ih hword.2]

theorem literal_append_cons {word : List Char} {d : Char} (hword : d ∉ word)
    (line rest : List Char) : literal word (line ++ d :: rest) = literal word line := by
  simp only [literal, List.isPrefixOf_iff_prefix, prefix_append_cons_iff hword]

theorem lineBound_literal {word : List Char} (hword : '\n' ∉ word) :
    LineBound 0 (literal word) := by
  intro line rest _
  refine ⟨by rw [literal_append_cons hword, literal_append_cons hword], fun n hn => ?_⟩
  rw [literal_append_cons hword, literal] at hn
  split at hn
  · next h =>
    cases hn
    exact (List.isPrefixOf_iff_prefix.1 h).length_le
  · cases hn

/-- A word that ends with the newline of its line. -/
theorem lineBound_literal_newline (word : List Char) (hword : '\n' ∉ word) :
    LineBound 1 (literal (word ++ ['\n'])) := by
  intro line rest hline
  have hiff : ∀ rest, (word ++ ['\n']).isPrefixOf (line ++ '\n' :: rest) = true ↔ word = line := by
    intro rest
    rw [List.isPrefixOf_iff_prefix]
    constructor
    · rintro ⟨c, hc⟩
      rw [List.append_assoc] at hc
      rcases List.append_eq_append_iff.1 hc with ⟨d, rfl, hd⟩ | ⟨d, rfl, hd⟩
      · cases d with
        | nil => simp
        | cons e d =>
          simp only [List.cons_append, List.cons.injEq] at hd
          exact absurd (by simp [← hd.1]) hline
      · cases d with
        | nil => simp
        | cons e d =>
          simp only [List.cons_append, List.cons.injEq] at hd
          exact absurd (by simp [← hd.1]) hword
    · rintro rfl
      exact ⟨rest, by simp⟩
  refine ⟨by simp only [literal, hiff], fun n hn => ?_⟩
  simp only [literal, hiff] at hn
  split at hn
  · next h =>
    cases hn
    simp [h]
  · cases hn

theorem boundOn_findSome? {α : Type} {k : Nat} (reader : α → List Char → Option Nat)
    {items : List α} {line rest : List Char} (h : ∀ x ∈ items, BoundOn k (reader x) line rest) :
    BoundOn k (fun cs => items.findSome? fun x => reader x cs) line rest := by
  induction items with
  | nil => exact ⟨rfl, fun n hn => by cases hn⟩
  | cons x items ih =>
    obtain ⟨heq, hle⟩ := h x (by simp)
    obtain ⟨heq', hle'⟩ := ih fun y hy => h y (by simp [hy])
    refine ⟨?_, fun n hn => ?_⟩
    · simp only at heq'
      simp only [List.findSome?_cons, heq, heq']
    · simp only [List.findSome?_cons] at hn
      cases hx : reader x (line ++ '\n' :: rest) with
      | some m =>
        simp only [hx] at hn
        exact hle n (by rw [hx, hn])
      | none =>
        simp only [hx] at hn
        exact hle' n hn

theorem lineBound_findSome? {α : Type} {k : Nat} (reader : α → List Char → Option Nat)
    {items : List α} (h : ∀ x ∈ items, LineBound k (reader x)) :
    LineBound k fun cs => items.findSome? fun x => reader x cs :=
  fun line rest hline => boundOn_findSome? reader fun x hx => h x hx line rest hline

theorem lineBound_oneOf {words : List String} (h : ∀ word ∈ words, '\n' ∉ word.toList) :
    LineBound 0 (oneOf words) :=
  lineBound_findSome? (fun word : String => literal word.toList) fun word hword =>
    lineBound_literal (h word hword)

theorem lineBound_both {k : Nat} {first second : List Char → Option Nat} (h1 : LineBound 0 first)
    (h2 : LineBound k second) : LineBound k (both first second) := by
  intro line rest hline
  obtain ⟨heq, hle⟩ := h1 line rest hline
  simp only [BoundOn, both, ← heq]
  cases hfirst : first (line ++ '\n' :: rest) with
  | none => simp
  | some n =>
    have hn : n ≤ line.length := hle n hfirst
    obtain ⟨heq', hle'⟩ := h2 (line.drop n) rest fun hmem => hline (List.mem_of_mem_drop hmem)
    simp only [Option.bind_some, List.drop_append_of_le_length hn, heq']
    refine ⟨trivial, fun m hm => ?_⟩
    obtain ⟨m', hm', rfl⟩ := Option.map_eq_some_iff.1 hm
    have := hle' m' (by rw [heq', hm'])
    rw [List.length_drop] at this
    omega

theorem lineBound_optional {k : Nat} {reader : List Char → Option Nat} (h : LineBound k reader) :
    LineBound k (optional reader) := by
  intro line rest hline
  obtain ⟨heq, hle⟩ := h line rest hline
  simp only [BoundOn, optional, ← heq]
  refine ⟨trivial, fun n hn => ?_⟩
  cases hn
  cases hr : reader (line ++ '\n' :: rest) with
  | none => simp
  | some m => simpa using hle m hr

theorem lineBound_or {k : Nat} {first second : List Char → Option Nat} (h1 : LineBound k first)
    (h2 : LineBound k second) : LineBound k fun cs => (first cs).or (second cs) := by
  intro line rest hline
  obtain ⟨heq, hle⟩ := h1 line rest hline
  obtain ⟨heq', hle'⟩ := h2 line rest hline
  simp only [BoundOn, ← heq, ← heq']
  refine ⟨trivial, fun n hn => ?_⟩
  rcases Option.or_eq_some_iff.1 hn with h | ⟨-, h⟩
  · exact hle n h
  · exact hle' n h

theorem lineBound_skipBlanks : LineBound 0 skipBlanks := lineBound_atLeast (by decide) 0

theorem lineBound_afterBlanks {k : Nat} {reader : List Char → Option Nat} (h : LineBound k reader) :
    LineBound k (afterBlanks reader) := by
  intro line rest hline
  have hle := run_le_length isBlank line
  -- the numbers of blanks tried are those of the line, whatever follows it
  have heach : BoundOn k (fun cs => (List.range (run isBlank line + 1)).reverse.findSome? fun n =>
      (reader (cs.drop n)).map (n + ·)) line rest := by
    refine boundOn_findSome? (fun n cs => (reader (cs.drop n)).map (n + ·)) fun n hn => ?_
    rw [List.mem_reverse, List.mem_range] at hn
    have hn' : n ≤ line.length := by omega
    obtain ⟨heq, hbound⟩ := h (line.drop n) rest fun hmem => hline (List.mem_of_mem_drop hmem)
    refine ⟨by simp only [List.drop_append_of_le_length hn', heq], fun m hm => ?_⟩
    simp only [List.drop_append_of_le_length hn'] at hm
    obtain ⟨m', hm', rfl⟩ := Option.map_eq_some_iff.1 hm
    have := hbound m' hm'
    rw [List.length_drop] at this
    omega
  have hrun : ∀ rest, run isBlank (line ++ '\n' :: rest) = run isBlank line :=
    run_append_cons (by decide) line
  exact ⟨by simpa only [afterBlanks, hrun] using heach.1,
    by simpa only [afterBlanks, hrun] using heach.2⟩

theorem lineBound_named {k : Nat} {names : List Text} {reader : List Char → Option Nat}
    (hnames : ∀ name ∈ names, '\n' ∉ name) (h : LineBound k reader) :
    LineBound k (named names reader) :=
  lineBound_findSome? (fun name : Text => both (literal name) reader) fun name hname =>
    lineBound_both (lineBound_literal (hnames name hname)) h

theorem lineBound_hashComment : LineBound 0 hashComment := by
  refine lineBound_both (lineBound_literal (by decide))
    (lineBound_both ?_ (lineBound_atLeast (by decide) 0))
  intro line rest _
  cases line with
  | nil => exact ⟨rfl, fun n hn => by simp [isBlank] at hn⟩
  | cons c line =>
    refine ⟨rfl, fun n hn => ?_⟩
    by_cases hc : isBlank c
    · simp only [List.cons_append, List.head?_cons, Option.any_some, hc] at hn
      cases hn
      simp
    · simp [hc] at hn

theorem lineBound_annotation : LineBound 0 annotation :=
  lineBound_both (lineBound_literal (by decide))
    (lineBound_both (lineBound_atLeast (by decide) 0) (lineBound_literal (by decide)))

theorem lineBound_lineEnd : LineBound 1 lineEnd := by
  intro line rest hline
  match line, hline with
  | [], _ => exact ⟨rfl, fun n hn => by simp [lineEnd] at hn; simp [← hn]⟩
  | ['\r'], _ => exact ⟨rfl, fun n hn => by simp [lineEnd] at hn; simp [← hn]⟩
  | c :: d :: line, hline =>
    simp only [List.mem_cons, not_or] at hline
    have hnone : ∀ rest, lineEnd (c :: d :: line ++ '\n' :: rest) = none := by
      intro rest
      simp only [List.cons_append]
      unfold lineEnd
      split <;> simp_all
    exact ⟨by rw [hnone, hnone], fun n hn => by rw [hnone] at hn; cases hn⟩
  | [c], hline =>
    simp only [List.mem_cons, not_or] at hline
    by_cases hc : c = '\r'
    · subst hc
      exact ⟨rfl, fun n hn => by simp [lineEnd] at hn; simp [← hn]⟩
    · have hnone : ∀ rest, lineEnd ([c] ++ '\n' :: rest) = none := by
        intro rest
        simp only [List.cons_append, List.nil_append]
        unfold lineEnd
        split <;> simp_all
      exact ⟨by rw [hnone, hnone], fun n hn => by rw [hnone] at hn; cases hn⟩

end Lexeme

/-! ### Rules -/

open Lexeme

/-- How many characters a rule can take from the newline of its line on. -/
def Rule.reach : Rule → Nat
  | .alternativeVersion | .newline | .other => 1
  | _ => 0

theorem lineBound_onLineStart {k : Nat} {reader : List Char → Option Nat} (h : LineBound k reader)
    (lineStart : Bool) : LineBound k fun cs => if lineStart then reader cs else none := by
  cases lineStart with
  | true => exact h
  | false => exact fun line rest _ => ⟨rfl, fun n hn => by cases hn⟩

/-- **Every rule is bound by its line.** -/
theorem Rule.lineBound {r : Registry} (hr : r.OnOneLine) (lineStart : Bool) (rule : Rule) :
    LineBound rule.reach fun cs => rule.extent? r.grammar lineStart cs := by
  have htags : ∀ name ∈ r.grammar.argumentTags, '\n' ∉ name := fun name hname =>
    hr.argumentTags name (mem_longestFirst.1 hname)
  have hkeys : ∀ name ∈ r.grammar.headerKeys, '\n' ∉ name := fun name hname =>
    hr.headerKeys name (mem_longestFirst.1 hname)
  have hdigits : LineBound 0 (atLeast 1 Char.isDigit) := lineBound_atLeast (by decide) 1
  have hpoint : LineBound 0 (literal ['.']) := lineBound_literal (by decide)
  cases rule with
  | dots => exact lineBound_onLineStart (lineBound_atLeast (by decide) 4) lineStart
  | argumentTag =>
    exact lineBound_both (lineBound_literal (by decide))
      (lineBound_named htags (lineBound_literal (by decide)))
  | hashName =>
    exact lineBound_both (lineBound_literal (by decide))
      (lineBound_both (lineBound_atLeast (by decide) 1) (lineBound_optional lineBound_annotation))
  | disabledInclusion => exact lineBound_onLineStart (lineBound_oneOf (by decide)) lineStart
  | directoryChange =>
    exact lineBound_onLineStart (lineBound_both (lineBound_literal (by decide))
      (lineBound_both (lineBound_atLeast (by decide) 1) (lineBound_oneOf (by decide)))) lineStart
  | inclusion => exact lineBound_onLineStart (lineBound_oneOf (by decide)) lineStart
  | headerDelimiter => exact lineBound_onLineStart (lineBound_atLeast (by decide) 3) lineStart
  | coreOpening => exact lineBound_onLineStart (lineBound_atLeast (by decide) 3) lineStart
  | coreClosing => exact lineBound_onLineStart (lineBound_atLeast (by decide) 3) lineStart
  | headerKey =>
    exact lineBound_onLineStart (lineBound_afterBlanks (lineBound_named hkeys
      (lineBound_both lineBound_skipBlanks (lineBound_literal (by decide))))) lineStart
  | lineComment =>
    exact lineBound_onLineStart (lineBound_both lineBound_skipBlanks lineBound_hashComment)
      lineStart
  | trailingComment => exact lineBound_both (lineBound_atLeast (by decide) 1) lineBound_hashComment
  | hashMark => exact lineBound_oneOf (by decide)
  | answer => exact lineBound_onLineStart (lineBound_oneOf (by decide)) lineStart
  | conditionalAnswer => exact lineBound_oneOf (by decide)
  | alternativeVersion =>
    exact lineBound_onLineStart (lineBound_both (lineBound_literal (by decide))
      (lineBound_both lineBound_skipBlanks lineBound_lineEnd)) lineStart
  | escapedQuote => exact lineBound_oneOf (by decide)
  | macroName =>
    exact lineBound_or (lineBound_both (lineBound_literal (by decide))
      (lineBound_atLeast (by decide) 1)) (lineBound_oneOf (by decide))
  | tripleQuote => exact lineBound_oneOf (by decide)
  | newline =>
    refine lineBound_findSome? (fun word : String => literal word.toList) ?_
    intro word hword
    simp only [List.mem_cons, List.not_mem_nil, or_false] at hword
    rcases hword with rfl | rfl
    · exact lineBound_literal_newline ['\r'] (by decide)
    · exact lineBound_literal_newline [] (by decide)
  | blanks => exact lineBound_atLeast (by decide) 1
  | number =>
    exact lineBound_or (lineBound_or (lineBound_both hdigits (lineBound_both hpoint hdigits))
      hdigits) (lineBound_both hpoint hdigits)
  | word => exact lineBound_atLeast (by decide) 1
  | other => exact fun line rest _ => ⟨rfl, fun n hn => by cases hn; simp [Rule.reach]⟩

theorem Rule.reach_le_one (rule : Rule) : rule.reach ≤ 1 := by cases rule <;> decide

/-! ### The next lexeme -/

namespace Grammar

variable {r : Registry}

theorem boundOn_findSome?_all (hr : r.OnOneLine) (lineStart : Bool) {line : List Char}
    (hline : '\n' ∉ line) (rest : List Char) :
    BoundOn 1 (fun cs => Rule.all.findSome? (Rule.extent? r.grammar lineStart cs)) line rest :=
  boundOn_findSome? (fun rule cs => rule.extent? r.grammar lineStart cs) fun rule _ =>
    (Rule.lineBound hr lineStart rule).mono rule.reach_le_one line rest hline

/-- **The next lexeme lies on its line and is found there.** -/
theorem extent_line (hr : r.OnOneLine) (lineStart : Bool) {line : List Char} (hline : '\n' ∉ line)
    (rest : List Char) :
    r.grammar.extent lineStart (line ++ '\n' :: rest) =
        r.grammar.extent lineStart (line ++ ['\n']) ∧
      r.grammar.extent lineStart (line ++ '\n' :: rest) ≤ line.length + 1 := by
  obtain ⟨heq, hle⟩ := boundOn_findSome?_all hr lineStart hline rest
  simp only at heq hle
  refine ⟨by rw [extent, extent, heq], ?_⟩
  rw [extent]
  cases hfound : Rule.all.findSome? (Rule.extent? r.grammar lineStart (line ++ '\n' :: rest)) with
  | none => simp
  | some n =>
    have := hle n hfound
    simp only [Option.getD_some]
    omega

/-- A newline that reaches over the one of its line is a carriage return with it. -/
theorem line_of_newline {lineStart : Bool} {line rest : List Char} {n : Nat}
    (hrule : Rule.extent? r.grammar lineStart (line ++ '\n' :: rest) .newline = some n)
    (hline : line.length < n) (hn : 1 < n) : line = [] ∨ line = ['\r'] := by
  obtain ⟨word, hword, hlit⟩ := List.exists_of_findSome?_eq_some hrule
  simp only [literal] at hlit
  split at hlit
  · next hprefix =>
    simp only [List.mem_cons, List.not_mem_nil, or_false] at hword
    rcases hword with rfl | rfl
    · cases line with
      | nil => exact Or.inl rfl
      | cons c line =>
        have hprefix' := List.isPrefixOf_iff_prefix.1 hprefix
        have hc : c = '\r' := (List.cons_prefix_cons.1 hprefix').1.symm
        have hlen : line = [] := by
          cases hlit
          have hbound : "\r\n".toList.length = 2 := by decide
          rw [hbound, List.length_cons] at hline
          exact List.length_eq_zero_iff.1 (by omega)
        exact Or.inr (by rw [hc, hlen])
    · cases hlit
      exact absurd hn (by decide)
  · cases hlit

/-- A separator of versions is read at a line start only. -/
theorem line_of_alternativeVersion {lineStart : Bool} {line rest : List Char} {n : Nat}
    (hrule : Rule.extent? r.grammar lineStart (line ++ '\n' :: rest) .alternativeVersion = some n) :
    line = [] ∨ (lineStart = true ∧ line.head? = some 'O') := by
  simp only [Rule.extent?] at hrule
  cases lineStart with
  | false => cases hrule
  | true =>
    obtain ⟨m, hm, -⟩ := Option.bind_eq_some_iff.1 hrule
    simp only [literal] at hm
    split at hm
    · next hprefix =>
      cases line with
      | nil => exact Or.inl rfl
      | cons c line =>
        have := (List.cons_prefix_cons.1 (List.isPrefixOf_iff_prefix.1 hprefix)).1
        exact Or.inr ⟨rfl, by rw [List.head?_cons, this]⟩
    · cases hm

/-- Only two rules take the newline of a line that is not empty. -/
theorem rule_of_newline (hr : r.OnOneLine) {lineStart : Bool} {line rest : List Char} {n : Nat}
    (hline : '\n' ∉ line) (hne : line ≠ [])
    (hn : r.grammar.extent lineStart (line ++ '\n' :: rest) = n) (h : line.length < n) :
    Rule.extent? r.grammar lineStart (line ++ '\n' :: rest) .newline = some n ∨
      Rule.extent? r.grammar lineStart (line ++ '\n' :: rest) .alternativeVersion = some n := by
  have hpos := List.length_pos_iff.2 hne
  rw [extent] at hn
  cases hfound : Rule.all.findSome? (Rule.extent? r.grammar lineStart (line ++ '\n' :: rest)) with
  | none =>
    rw [hfound, Option.getD_none, Nat.max_self] at hn
    omega
  | some m =>
    rw [hfound, Option.getD_some] at hn
    obtain rfl : m = n := by omega
    obtain ⟨rule, -, hrule⟩ := List.exists_of_findSome?_eq_some hfound
    have hreach := (Rule.lineBound hr lineStart rule line rest hline).2 m hrule
    cases rule with
    | newline => exact Or.inl hrule
    | alternativeVersion => exact Or.inr hrule
    | other =>
      cases hrule
      omega
    | _ =>
      -- every other rule stops before the newline of its line
      simp only [Rule.reach] at hreach
      omega

/-- **A lexeme with the newline of its line** is a newline, or starts the line like a separator of
versions. -/
theorem lexeme_with_newline (hr : r.OnOneLine) {lineStart : Bool} {line rest : List Char}
    (hline : '\n' ∉ line)
    (h : line.length < r.grammar.extent lineStart (line ++ '\n' :: rest)) :
    line = [] ∨ line = ['\r'] ∨ (lineStart = true ∧ line.head? = some 'O') := by
  by_cases hne : line = []
  · exact Or.inl hne
  · have hpos := List.length_pos_iff.2 hne
    rcases rule_of_newline hr hline hne rfl h with hnewline | hversion
    · exact (line_of_newline hnewline h (by omega)).imp_right Or.inl
    · exact (line_of_alternativeVersion hversion).imp_right Or.inr

end Grammar

end TemplateStyler
