import TemplateStyler.Lexeme.Grammar

/-!
# First characters

Most rules take nothing from a text that does not start with one of a few characters. So the next
lexeme is found with the few rules that can start with the character that is there.

* `StartsWith p reader`: the reader takes nothing where the first character fails the test.
* `Rule.startsWith`: every rule starts with the characters of `Rule.canStart`.
* `Grammar.exists_extent`: **the length of the next lexeme, by the rules that its first character
  leaves.** `Grammar.extent_of_rules` is for a character whose rules are known.
-/

namespace TemplateStyler

open Text

namespace Lexeme

/-- A reader that takes nothing from a text whose first character fails the test. -/
def StartsWith (p : Char → Bool) (reader : List Char → Option Nat) : Prop :=
  ∀ c cs, p c = false → reader (c :: cs) = none

theorem run_cons_of_neg {p : Char → Bool} {c : Char} (hc : p c = false) (cs : List Char) :
    run p (c :: cs) = 0 := by
  rw [run, List.takeWhile_cons_of_neg (by simp [hc]), List.length_nil]

theorem startsWith_atLeast {n : Nat} (hn : 0 < n) (p : Char → Bool) :
    StartsWith p (atLeast n p) := by
  intro c cs hc
  rw [atLeast, run_cons_of_neg hc, if_neg (by omega)]

theorem literal_cons_of_ne {c d : Char} (h : c ≠ d) (word cs : List Char) :
    literal (d :: word) (c :: cs) = none := by
  rw [literal, List.isPrefixOf_cons_cons, if_neg]
  simp [Ne.symm h]

theorem startsWith_literal (d : Char) (word : List Char) :
    StartsWith (· == d) (literal (d :: word)) := fun _ cs hc =>
  literal_cons_of_ne (beq_eq_false_iff_ne.1 hc) word cs

theorem startsWith_oneOf {p : Char → Bool} {words : List String}
    (h : ∀ word ∈ words, word.toList.head?.any p = true) : StartsWith p (oneOf words) := by
  intro c cs hc
  refine List.findSome?_eq_none_iff.2 fun word hword => ?_
  have hp := h word hword
  cases hlist : word.toList with
  | nil => rw [hlist] at hp; cases hp
  | cons d rest =>
    rw [hlist, List.head?_cons, Option.any_some] at hp
    exact literal_cons_of_ne (by rintro rfl; rw [hp] at hc; cases hc) rest cs

theorem StartsWith.both {p : Char → Bool} {first : List Char → Option Nat}
    (h : StartsWith p first) (second : List Char → Option Nat) :
    StartsWith p (both first second) := by
  intro c cs hc
  rw [Lexeme.both, h c cs hc, Option.bind_none]

theorem StartsWith.or {p : Char → Bool} {first second : List Char → Option Nat}
    (h1 : StartsWith p first) (h2 : StartsWith p second) :
    StartsWith p fun cs => (first cs).or (second cs) := fun c cs hc => by
  simp only [h1 c cs hc, h2 c cs hc, Option.or_none]

theorem StartsWith.mono {p p' : Char → Bool} {reader : List Char → Option Nat}
    (h : StartsWith p reader) (hp : ∀ c, p' c = false → p c = false) : StartsWith p' reader :=
  fun c cs hc => h c cs (hp c hc)

theorem startsWith_named {p : Char → Bool} {names : List Text}
    (h : ∀ name ∈ names, name.head?.any p = true) (reader : List Char → Option Nat) :
    StartsWith p (named names reader) := by
  intro c cs hc
  refine List.findSome?_eq_none_iff.2 fun name hname => ?_
  have hp := h name hname
  cases name with
  | nil => cases hp
  | cons d rest =>
    refine StartsWith.both (p := p) (fun c cs hc => ?_) reader c cs hc
    exact literal_cons_of_ne (by rintro rfl; rw [List.head?_cons] at hp; simp_all) rest cs

/-- Where no blanks stand none are skipped. -/
theorem startsWith_skipBlanks {p : Char → Bool} {reader : List Char → Option Nat}
    (h : StartsWith p reader) :
    StartsWith (fun c => isBlank c || p c) (both skipBlanks reader) := by
  intro c cs hc
  rw [Bool.or_eq_false_iff] at hc
  have hrun : skipBlanks (c :: cs) = some 0 := by
    rw [skipBlanks, atLeast, run_cons_of_neg hc.1, if_pos (Nat.le_refl 0)]
  rw [both, hrun, Option.bind_some, List.drop_zero, h c cs hc.2, Option.map_none]

theorem startsWith_afterBlanks {p : Char → Bool} {reader : List Char → Option Nat}
    (h : StartsWith p reader) : StartsWith (fun c => isBlank c || p c) (afterBlanks reader) := by
  intro c cs hc
  rw [Bool.or_eq_false_iff] at hc
  simp [afterBlanks, run_cons_of_neg hc.1, h c cs hc.2]

end Lexeme

open Lexeme

namespace Rule

/-- Whether a rule may take something from a text with a first character. -/
def canStart (lineStart : Bool) (c : Char) : Rule → Bool
  | .dots => lineStart && c == '.'
  | .argumentTag | .hashName | .hashMark => c == '#'
  | .disabledInclusion => lineStart && c == '!'
  | .directoryChange | .inclusion => lineStart && c == '-'
  | .headerDelimiter => lineStart && c == '='
  | .coreOpening => lineStart && c == '<'
  | .coreClosing => lineStart && c == '>'
  | .headerKey => lineStart
  | .lineComment => lineStart && (isBlank c || c == '#')
  | .trailingComment | .blanks => isBlank c
  | .answer => lineStart && (c == '+' || c == '-' || c == '!')
  | .conditionalAnswer => c == '?'
  | .alternativeVersion => lineStart && c == 'O'
  | .escapedQuote | .macroName => c == '\\'
  | .tripleQuote => c == '\'' || c == '"'
  | .newline => c == '\r' || c == '\n'
  | .number => c.isDigit || c == '.'
  | .word => isWord c
  | .other => true

theorem startsWith_onLineStart {p : Char → Bool} {reader : List Char → Option Nat}
    (h : StartsWith p reader) (lineStart : Bool) :
    StartsWith (fun c => lineStart && p c) fun cs => if lineStart then reader cs else none := by
  cases lineStart with
  | true => simpa using h
  | false => exact fun _ _ _ => rfl

/-- **A rule takes nothing where it cannot start.** -/
theorem startsWith (g : Grammar) (lineStart : Bool) (rule : Rule) :
    StartsWith (rule.canStart lineStart) fun cs => rule.extent? g lineStart cs := by
  have hdigits : StartsWith Char.isDigit (atLeast 1 Char.isDigit) :=
    startsWith_atLeast (by decide) _
  have hcomment : StartsWith (· == '#') hashComment := (startsWith_literal '#' []).both _
  cases rule with
  | dots => exact startsWith_onLineStart (startsWith_atLeast (by decide) _) lineStart
  | argumentTag => exact (startsWith_literal '#' []).both _
  | hashName => exact (startsWith_literal '#' []).both _
  | disabledInclusion => exact startsWith_onLineStart (startsWith_oneOf (by decide)) lineStart
  | directoryChange =>
    exact startsWith_onLineStart ((startsWith_literal '-' ['-']).both _) lineStart
  | inclusion => exact startsWith_onLineStart (startsWith_oneOf (by decide)) lineStart
  | headerDelimiter => exact startsWith_onLineStart (startsWith_atLeast (by decide) _) lineStart
  | coreOpening => exact startsWith_onLineStart (startsWith_atLeast (by decide) _) lineStart
  | coreClosing => exact startsWith_onLineStart (startsWith_atLeast (by decide) _) lineStart
  | headerKey => exact fun _ _ h => if_neg (by rw [show lineStart = false from h]; decide)
  | lineComment => exact startsWith_onLineStart (startsWith_skipBlanks hcomment) lineStart
  | trailingComment => exact (startsWith_atLeast (by decide) _).both _
  | hashMark => exact startsWith_oneOf (by decide +revert)
  | answer => exact startsWith_onLineStart (startsWith_oneOf (by decide)) lineStart
  | conditionalAnswer => exact startsWith_oneOf (by decide +revert)
  | alternativeVersion =>
    exact startsWith_onLineStart ((startsWith_literal 'O' ['R']).both _) lineStart
  | escapedQuote => exact startsWith_oneOf (by decide +revert)
  | macroName =>
    have hletters : StartsWith (· == '\\') (both (literal ['\\']) (atLeast 1 Char.isAlpha)) :=
      (startsWith_literal '\\' []).both _
    exact hletters.or (startsWith_oneOf (by decide))
  | tripleQuote => exact startsWith_oneOf (by decide +revert)
  | newline => exact startsWith_oneOf (by decide +revert)
  | blanks => exact startsWith_atLeast (by decide) _
  | number =>
    have hdigit : ∀ c : Char, (c.isDigit || c == '.') = false → c.isDigit = false := fun _ h =>
      (Bool.or_eq_false_iff.1 h).1
    have hpoint : StartsWith (fun c => c.isDigit || c == '.')
        (both (literal ['.']) (atLeast 1 Char.isDigit)) :=
      ((startsWith_literal '.' []).both _).mono fun _ h => (Bool.or_eq_false_iff.1 h).2
    exact (((hdigits.both _).mono hdigit).or (hdigits.mono hdigit)).or hpoint
  | word => exact startsWith_atLeast (by decide) _
  | other => exact fun _ _ h => by cases h

end Rule

namespace Grammar

theorem findSome?_filter {α β : Type} {p : α → Bool} {f : α → Option β} {l : List α}
    (h : ∀ a, p a = false → f a = none) : (l.filter p).findSome? f = l.findSome? f := by
  induction l with
  | nil => rfl
  | cons a l ih =>
    by_cases hp : p a = true
    · rw [List.filter_cons_of_pos hp, List.findSome?_cons, List.findSome?_cons, ih]
    · rw [List.filter_cons_of_neg hp, List.findSome?_cons, h a (by simpa using hp), ih]

/-- The other rules take nothing. -/
theorem findSome?_rules (g : Grammar) {lineStart : Bool} {c : Char} {rules : List Rule}
    (hrules : Rule.all.filter (Rule.canStart lineStart c) = rules) (cs : List Char) :
    Rule.all.findSome? (Rule.extent? g lineStart (c :: cs)) =
      rules.findSome? (Rule.extent? g lineStart (c :: cs)) := by
  rw [← hrules, findSome?_filter fun rule hrule => rule.startsWith g lineStart c cs hrule]

/-- **The next lexeme is found by the rules that can start with its first character.** -/
theorem exists_extent (g : Grammar) (lineStart : Bool) (c : Char) (cs : List Char) :
    ∃ n, (Rule.all.filter (Rule.canStart lineStart c)).findSome?
        (Rule.extent? g lineStart (c :: cs)) = some n ∧
      g.extent lineStart (c :: cs) = max 1 n := by
  have hother : ((Rule.all.filter (Rule.canStart lineStart c)).findSome?
      (Rule.extent? g lineStart (c :: cs))).isSome = true :=
    List.findSome?_isSome_iff.2 ⟨.other, List.mem_filter.2 ⟨by decide, rfl⟩, rfl⟩
  obtain ⟨n, hn⟩ := Option.isSome_iff_exists.1 hother
  refine ⟨n, hn, ?_⟩
  rw [extent, g.findSome?_rules rfl, hn, Option.getD_some]

/-- The same where the rules that can start with a character are listed. -/
theorem extent_of_rules {g : Grammar} {lineStart : Bool} {c : Char} {cs : List Char}
    (rules : List Rule) (hrules : Rule.all.filter (Rule.canStart lineStart c) = rules) {n : Nat}
    (hfirst : rules.findSome? (Rule.extent? g lineStart (c :: cs)) = some n) (hn : 1 ≤ n) :
    g.extent lineStart (c :: cs) = n := by
  rw [extent, g.findSome?_rules hrules, hfirst, Option.getD_some, Nat.max_eq_right hn]

end Grammar

end TemplateStyler
