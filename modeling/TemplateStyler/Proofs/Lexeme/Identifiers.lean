import TemplateStyler.Proofs.Directive.Checked
import TemplateStyler.Proofs.Lexeme.Partition
import TemplateStyler.Proofs.Lexeme.Quoted
import TemplateStyler.Proofs.State.Causes

/-!
# Names that are identifiers

Where the names of a registry are identifiers, no name can be mistaken for another one: a name ends
before the first character that is no part of one, so that the order in which names are tried does
not matter.

* `Registry.Identifiers`: the tags with an argument and the keys of the header are identifiers.
* `Grammar.findSome?_hashWord`: **a number sign, a word and a brace are one lexeme if and only if
  the word is a tag with an argument.**
* `Registry.IsKeyText`: blanks, a key of the header, blanks and an equals sign.
  `Grammar.findSome?_keyText`: **at a line start this is one lexeme.**
* `Rule.cases_of_equals`: the lexemes that hold an equals sign, by the rule that takes them. Only
  the rule of keys takes more of them than comments and equals signs alone.
-/

namespace TemplateStyler

open Text Lexeme

/-- A name of letters, digits and underscores that does not start with a digit. -/
structure IsIdentifier (name : Text) : Prop where
  head : name.head?.any Token.startsName = true
  all : ∀ c ∈ name, Token.continuesName c = true

namespace IsIdentifier

variable {name : Text}

theorem not_mem (h : IsIdentifier name) {c : Char} (hc : Token.continuesName c = false) :
    c ∉ name := fun hmem => by
  rw [h.all c hmem] at hc
  cases hc

theorem exists_cons (h : IsIdentifier name) :
    ∃ c cs, name = c :: cs ∧ Token.startsName c = true := by
  cases name with
  | nil => cases h.head
  | cons c cs => exact ⟨c, cs, rfl, h.head⟩

end IsIdentifier

/-- The names that the rules look for are identifiers. -/
structure Registry.Identifiers (r : Registry) : Prop where
  argumentTags : ∀ name ∈ r.argumentTags, IsIdentifier name
  headerKeys : ∀ name ∈ r.headerKeys, IsIdentifier name

variable {r : Registry}

theorem Registry.Identifiers.onOneLine (hr : r.Identifiers) : r.OnOneLine :=
  ⟨fun name hname => (hr.argumentTags name hname).not_mem (by decide),
    fun name hname => (hr.headerKeys name hname).not_mem (by decide)⟩

/-! ### Tags with an argument -/

/-- A character that two texts lack parts what follows them in one way. -/
theorem eq_of_append_cons {d : Char} {a a' b b' : Text} (ha : d ∉ a) (ha' : d ∉ a')
    (h : a ++ d :: b = a' ++ d :: b') : a = a' := by
  have htake : ∀ {a : Text} (b : Text), d ∉ a → (a ++ d :: b).takeWhile (· != d) = a := by
    intro a b ha
    rw [takeWhile_append_cons (by simp), List.takeWhile_eq_self_iff]
    exact fun c hc => bne_iff_ne.2 fun heq => ha (heq ▸ hc)
  rw [← htake b ha, h, htake b' ha']

/-- A word before a brace is read if it is one of the names. -/
theorem named_brace {names : List Text} (hnames : ∀ name ∈ names, '{' ∉ name) {w : Text}
    (hw : '{' ∉ w) (b : Text) :
    named names (literal ['{']) (w ++ '{' :: b) =
      if w ∈ names then some (w.length + 1) else none := by
  have hread : ∀ name ∈ names, ∀ n, both (literal name) (literal ['{']) (w ++ '{' :: b) = some n →
      name = w ∧ n = w.length + 1 := by
    intro name hname n hn
    obtain ⟨_, _, hfirst, hsecond, rfl⟩ := both_eq_some_iff.1 hn
    obtain ⟨rest, hrest, rfl⟩ := literal_eq_some_iff.1 hfirst
    rw [hrest, List.drop_left] at hsecond
    obtain ⟨rest', rfl, rfl⟩ := literal_eq_some_iff.1 hsecond
    obtain rfl : name = w := eq_of_append_cons (hnames name hname) hw hrest.symm
    exact ⟨rfl, rfl⟩
  split
  · next hmem =>
    have hsome : (named names (literal ['{']) (w ++ '{' :: b)).isSome = true := by
      refine List.findSome?_isSome_iff.2 ⟨w, hmem, ?_⟩
      rw [both_literal]
      rfl
    obtain ⟨n, hn⟩ := Option.isSome_iff_exists.1 hsome
    obtain ⟨name, hname, hread'⟩ := List.exists_of_findSome?_eq_some hn
    rw [hn, (hread name hname n hread').2]
  · next hmem =>
    refine List.findSome?_eq_none_iff.2 fun name hname => ?_
    refine Option.eq_none_iff_forall_ne_some.2 fun n hn => hmem ?_
    rw [← (hread name hname n hn).1]
    exact hname

namespace Grammar

/-- **A number sign, a word and a brace are one lexeme if the word is a tag with an argument**;
otherwise the lexeme ends before the brace. -/
theorem findSome?_hashWord (hr : r.Identifiers) (lineStart : Bool) {w : Text} (hne : w ≠ [])
    (hw : ∀ c ∈ w, isWord c = true) (b : Text) :
    Rule.all.findSome? (Rule.extent? r.grammar lineStart ('#' :: (w ++ '{' :: b))) =
      some (if w ∈ r.argumentTags then w.length + 2 else w.length + 1) := by
  obtain ⟨rules, hrules⟩ : ∃ rules, Rule.all.filter (Rule.canStart lineStart '#') =
      .argumentTag :: .hashName :: rules := by
    cases lineStart <;> exact ⟨_, rfl⟩
  have hbrace : '{' ∉ w := fun hmem => absurd (hw _ hmem) (by decide)
  have htag : Rule.extent? r.grammar lineStart ('#' :: (w ++ '{' :: b)) .argumentTag =
      if w ∈ r.argumentTags then some (w.length + 2) else none := by
    have hboth := both_literal ['#'] (named r.grammar.argumentTags (literal ['{'])) (w ++ '{' :: b)
    have hnames : ∀ name ∈ r.grammar.argumentTags, '{' ∉ name := fun name hname =>
      (hr.argumentTags name (mem_longestFirst.1 hname)).not_mem (by decide)
    rw [named_brace hnames hbrace, Registry.grammar] at hboth
    simp only [mem_longestFirst] at hboth
    refine hboth.trans ?_
    split
    · rw [Option.map_some, List.length_singleton, Nat.add_comm]
    · rfl
  have hname : Rule.extent? r.grammar lineStart ('#' :: (w ++ '{' :: b)) .hashName =
      some (w.length + 1) := by
    have hboth := both_literal ['#'] (both (atLeast 1 isWord) (optional annotation)) (w ++ '{' :: b)
    have hrun : atLeast 1 isWord (w ++ '{' :: b) = some w.length := by
      have hpos : 1 ≤ w.length := List.length_pos_iff.2 hne
      rw [atLeast, run_append_of_all hw (by decide), if_pos hpos]
    have hnone : annotation ('{' :: b) = none := by
      refine Option.eq_none_iff_forall_ne_some.2 fun n hn => ?_
      obtain ⟨_, _, heq, -⟩ := annotation_eq_some_iff.1 hn
      cases heq
    refine hboth.trans ?_
    rw [both, hrun, Option.bind_some, List.drop_left, Lexeme.optional, hnone, Option.getD_none]
    simp [Nat.add_comm]
  rw [← findSome?_filter fun rule hrule => rule.startsWith r.grammar lineStart '#' _ hrule, hrules,
    List.findSome?_cons, htag]
  by_cases hmem : w ∈ r.argumentTags
  · rw [if_pos hmem, if_pos hmem]
  · rw [if_neg hmem, if_neg hmem, List.findSome?_cons, hname]

end Grammar

/-! ### Keys of the header -/

/-- Blanks, a key of the header, blanks and an equals sign. -/
def Registry.IsKeyText (r : Registry) (cs : Text) : Prop :=
  ∃ front key back, cs = front ++ (key ++ (back ++ ['='])) ∧ (∀ c ∈ front, isBlank c = true) ∧
    key ∈ r.headerKeys ∧ ∀ c ∈ back, isBlank c = true

theorem Registry.IsKeyText.ne_nil {w : Text} (h : r.IsKeyText w) : w ≠ [] := by
  obtain ⟨front, key, back, rfl, -⟩ := h
  simp

/-- What the rule of keys takes behind the blanks at the start. -/
theorem both_key_eq_some_iff {name cs : Text} {n : Nat} :
    both (literal name) (both skipBlanks (literal ['='])) cs = some n ↔
      ∃ back rest, cs = name ++ (back ++ '=' :: rest) ∧ (∀ c ∈ back, isBlank c = true) ∧
        n = name.length + (back.length + 1) := by
  constructor
  · intro h
    obtain ⟨_, _, hname, hbehind, rfl⟩ := both_eq_some_iff.1 h
    obtain ⟨cs', rfl, rfl⟩ := literal_eq_some_iff.1 hname
    rw [List.drop_left] at hbehind
    obtain ⟨_, _, hblanks, hsign, rfl⟩ := both_eq_some_iff.1 hbehind
    obtain ⟨back, rest, rfl, hback, hlength⟩ := exists_run isBlank cs'
    rw [skipBlanks, atLeast, if_pos (Nat.zero_le _), ← hlength] at hblanks
    cases hblanks
    rw [List.drop_left] at hsign
    obtain ⟨rest', rfl, rfl⟩ := literal_eq_some_iff.1 hsign
    exact ⟨back, rest', rfl, hback, rfl⟩
  · rintro ⟨back, rest, rfl, hback, rfl⟩
    have hblanks : skipBlanks (back ++ '=' :: rest) = some back.length := by
      rw [skipBlanks, atLeast, run_append_of_all hback (by decide), if_pos (Nat.zero_le _)]
    have hsign : literal ['='] ('=' :: rest) = some 1 := rfl
    rw [both_literal, both, hblanks, Option.bind_some, List.drop_left, hsign]
    rfl

/-- A key ends before the blanks and the equals sign behind it. -/
theorem takeWhile_key {key back : Text} (hkey : IsIdentifier key)
    (hback : ∀ c ∈ back, isBlank c = true) (rest : Text) :
    (key ++ (back ++ '=' :: rest)).takeWhile Token.continuesName = key := by
  cases back with
  | nil => exact Token.takeWhile_continuesName hkey.all (by decide) rest
  | cons d back =>
    exact Token.takeWhile_continuesName hkey.all
      (Token.not_continuesName_of_isBlank (hback d List.mem_cons_self)) _

/-- Behind the blanks at the start of a key text the key is read with what belongs to it. -/
theorem named_key {names : List Text} (hnames : ∀ name ∈ names, IsIdentifier name) {key back : Text}
    (hkey : key ∈ names) (hback : ∀ c ∈ back, isBlank c = true) (rest : Text) :
    named names (both skipBlanks (literal ['='])) (key ++ (back ++ '=' :: rest)) =
      some (key.length + (back.length + 1)) := by
  have hread : both (literal key) (both skipBlanks (literal ['=']))
      (key ++ (back ++ '=' :: rest)) = some (key.length + (back.length + 1)) :=
    both_key_eq_some_iff.2 ⟨back, rest, rfl, hback, rfl⟩
  have hsome : (named names (both skipBlanks (literal ['=']))
      (key ++ (back ++ '=' :: rest))).isSome = true :=
    List.findSome?_isSome_iff.2 ⟨key, hkey, by rw [hread]; rfl⟩
  obtain ⟨n, hn⟩ := Option.isSome_iff_exists.1 hsome
  obtain ⟨name, hname, hread'⟩ := List.exists_of_findSome?_eq_some hn
  -- the name that is read is the key, as both end at the same character
  obtain ⟨back', rest', heq, hback', -⟩ := both_key_eq_some_iff.1 hread'
  have hsame : name = key := by
    rw [← takeWhile_key (hnames name hname) hback' rest', ← heq,
      takeWhile_key (hnames key hkey) hback]
  rw [hn, ← hread', hsame, hread]

namespace Grammar

/-- The rules before the one for keys take marks, which no key text starts with. -/
theorem findSome?_headerKey (g : Grammar) {c : Char} {cs : Text} {n : Nat}
    (hc : isBlank c = true ∨ Token.startsName c = true)
    (hn : Rule.extent? g true (c :: cs) .headerKey = some n) :
    Rule.all.findSome? (Rule.extent? g true (c :: cs)) = some n := by
  have hmarks : ¬ (c = '.' ∨ c = '#' ∨ c = '!' ∨ c = '-' ∨ c = '=' ∨ c = '<' ∨ c = '>') := by
    rintro (rfl | rfl | rfl | rfl | rfl | rfl | rfl) <;> exact absurd hc (by decide)
  simp only [not_or] at hmarks
  have hnone : ∀ rule ∈ Rule.all.takeWhile (· ≠ .headerKey), rule.canStart true c = false := by
    simp [Rule.all, Rule.canStart, hmarks]
  have hsplit : Rule.all = Rule.all.takeWhile (· ≠ .headerKey) ++
      .headerKey :: Rule.all.drop 10 := by decide
  rw [hsplit, List.findSome?_append,
    List.findSome?_eq_none_iff.2 fun rule hrule => rule.startsWith g true c cs (hnone rule hrule),
    Option.none_or, List.findSome?_cons, hn]

/-- **At a line start a key text is one lexeme.** -/
theorem findSome?_keyText (hr : r.Identifiers) {w : Text} (hw : r.IsKeyText w) (b : Text) :
    Rule.all.findSome? (Rule.extent? r.grammar true (w ++ b)) = some w.length := by
  obtain ⟨front, key, back, rfl, hfront, hkey, hback⟩ := hw
  obtain ⟨c, key', rfl, hc⟩ := (hr.headerKeys key hkey).exists_cons
  have hnames : ∀ name ∈ r.grammar.headerKeys, IsIdentifier name := fun name hname =>
    hr.headerKeys name (mem_longestFirst.1 hname)
  have htext : front ++ (c :: key' ++ (back ++ ['='])) ++ b =
      front ++ (c :: key' ++ (back ++ '=' :: b)) := by
    simp
  have hrun : run isBlank (front ++ (c :: key' ++ (back ++ '=' :: b))) = front.length := by
    refine run_append_of_all hfront (Bool.eq_false_iff.2 fun hblank => ?_) _
    have hnot := Token.not_continuesName_of_isBlank hblank
    rw [Token.continuesName_of_startsName hc] at hnot
    cases hnot
  have hread : Rule.extent? r.grammar true (front ++ (c :: key' ++ (back ++ '=' :: b))) .headerKey =
      some (front ++ (c :: key' ++ (back ++ ['=']))).length := by
    simp only [Rule.extent?, if_true, afterBlanks]
    rw [hrun, List.range_succ, List.reverse_append, List.reverse_singleton, List.singleton_append,
      List.findSome?_cons, List.drop_left,
      named_key hnames (mem_longestFirst.2 hkey) hback, Option.map_some, List.length_append,
      List.length_append, List.length_append, List.length_singleton]
  rw [htext]
  cases front with
  | nil => exact findSome?_headerKey r.grammar (Or.inr hc) hread
  | cons d front =>
    exact findSome?_headerKey r.grammar (Or.inl (hfront d List.mem_cons_self)) hread

end Grammar

/-- What the rule of keys takes is a key text. -/
theorem isKeyText_of_extent? {lineStart : Bool} {w b : Text}
    (h : Rule.extent? r.grammar lineStart (w ++ b) .headerKey = some w.length) :
    lineStart = true ∧ r.IsKeyText w := by
  cases lineStart with
  | false => cases h
  | true =>
    simp only [Rule.extent?, if_true, afterBlanks] at h
    obtain ⟨k, hk, h⟩ := List.exists_of_findSome?_eq_some h
    obtain ⟨m, hm, hlength⟩ := Option.map_eq_some_iff.1 h
    obtain ⟨name, hname, hm⟩ := List.exists_of_findSome?_eq_some hm
    obtain ⟨back, rest, hdrop, hback, rfl⟩ := both_key_eq_some_iff.1 hm
    obtain ⟨blanks, behind, hsplit, hblanks, hrun⟩ := exists_run isBlank (w ++ b)
    have hle : k ≤ blanks.length := by
      rw [hrun]
      simpa [Nat.lt_succ_iff] using hk
    have hfront : (w ++ b).take k = blanks.take k := by
      rw [hsplit, List.take_append_of_le_length hle]
    have hw : w ++ b = (blanks.take k ++ (name ++ (back ++ ['=']))) ++ rest := by
      rw [← List.take_append_drop k (w ++ b), hfront, hdrop]
      simp
    have hlength' : w.length = (blanks.take k ++ (name ++ (back ++ ['=']))).length := by
      simp only [List.length_append, List.length_take, List.length_singleton]
      omega
    exact ⟨rfl, blanks.take k, name, back, (List.append_inj hw hlength').1,
      fun c hc => hblanks c (List.mem_of_mem_take hc), mem_longestFirst.1 hname, hback⟩

/-! ### Lexemes with an equals sign -/

open Shape

theorem takes_onLineStart {p : Char → Bool} {reader : Text → Option Nat} (h : Takes p reader)
    (lineStart : Bool) : Takes p fun cs => if lineStart then reader cs else none := by
  cases lineStart with
  | true => exact h
  | false => exact fun _ _ hn => by cases hn

theorem takes_lineEnd {p : Char → Bool} (hreturn : p '\r' = true) (hnewline : p '\n' = true) :
    Takes p lineEnd := by
  intro cs n h
  unfold lineEnd at h
  split at h
  · cases h
    exact ⟨[], [], rfl, rfl, by simp⟩
  · next rest =>
    cases h
    exact ⟨['\n'], rest, rfl, rfl, by simp [hnewline]⟩
  · next rest =>
    cases h
    exact ⟨['\r', '\n'], rest, rfl, rfl, by simp [hreturn, hnewline]⟩
  · cases h

/-- The rules that take an equals sign: those for comments and marks behind a number sign, those for
equals signs, and the last one. -/
def Rule.TakesEquals (rule : Rule) : Prop :=
  rule ∈ [.argumentTag, .hashName, .headerDelimiter, .headerKey, .lineComment, .trailingComment,
    .hashMark, .other]

instance (rule : Rule) : Decidable rule.TakesEquals := by unfold Rule.TakesEquals; infer_instance

theorem Rule.takes_of_not_takesEquals (g : Grammar) (lineStart : Bool) {rule : Rule}
    (h : ¬ rule.TakesEquals) : Takes (· != '=') fun cs => rule.extent? g lineStart cs := by
  have hblanks : ∀ k, Takes (· != '=') (atLeast k isBlank) := takes_atLeast fun c hc => by
    rcases Bool.or_eq_true_iff.1 hc with hc | hc <;> rw [beq_iff_eq.1 hc] <;> rfl
  have hne : ∀ {d : Char}, d ≠ '=' → ∀ c : Char, (c == d) = true → (c != '=') = true :=
    fun hd c hc => bne_iff_ne.2 (beq_iff_eq.1 hc ▸ hd)
  have hdigits : Takes (· != '=') (atLeast 1 Char.isDigit) := takes_atLeast (fun c hc =>
    bne_iff_ne.2 (by rintro rfl; cases hc)) 1
  have hpoint : Takes (· != '=') (literal ['.']) := takes_literal (by decide)
  cases rule with
  | dots => exact takes_onLineStart (takes_atLeast (hne (by decide)) 4) lineStart
  | disabledInclusion => exact takes_onLineStart (takes_oneOf (by decide)) lineStart
  | directoryChange =>
    exact takes_onLineStart ((takes_literal (by decide)).both
      ((hblanks 1).both (takes_oneOf (by decide)))) lineStart
  | inclusion => exact takes_onLineStart (takes_oneOf (by decide)) lineStart
  | coreOpening => exact takes_onLineStart (takes_atLeast (hne (by decide)) 3) lineStart
  | coreClosing => exact takes_onLineStart (takes_atLeast (hne (by decide)) 3) lineStart
  | answer => exact takes_onLineStart (takes_oneOf (by decide)) lineStart
  | conditionalAnswer => exact takes_oneOf (by decide)
  | alternativeVersion =>
    exact takes_onLineStart ((takes_literal (by decide)).both
      ((hblanks 0).both (takes_lineEnd rfl rfl))) lineStart
  | escapedQuote => exact takes_oneOf (by decide)
  | macroName =>
    have hletters : Takes (· != '=') (atLeast 1 Char.isAlpha) := takes_atLeast (fun c hc =>
      bne_iff_ne.2 (by rintro rfl; cases hc)) 1
    exact ((takes_literal (by decide)).both hletters).or (takes_oneOf (by decide))
  | tripleQuote => exact takes_oneOf (by decide)
  | newline => exact takes_oneOf (by decide)
  | blanks => exact hblanks 1
  | number => exact ((hdigits.both (hpoint.both hdigits)).or hdigits).or (hpoint.both hdigits)
  | word => exact takes_atLeast (fun c hc => bne_iff_ne.2 (by rintro rfl; cases hc)) 1
  | _ => exact absurd (by decide) h

/-- A number sign behind blanks makes a comment of a lexeme that reaches so far. -/
theorem isComment_of_blanks {w b front behind : Text} (h : w ++ b = front ++ '#' :: behind)
    (hfront : ∀ c ∈ front, isBlank c = true) (hlength : front.length < w.length) :
    isComment w = true := by
  have hprefix : front ++ ['#'] <+: w := by
    have hwhole : front ++ ['#'] <+: w ++ b := ⟨behind, by rw [h, List.append_assoc]; rfl⟩
    refine List.prefix_of_prefix_length_le hwhole (List.prefix_append w b) ?_
    rw [List.length_append, List.length_singleton]
    omega
  obtain ⟨rest, rfl⟩ := hprefix
  have hspace : ∀ c ∈ front, isSpace c = true := fun c hc => isSpace_of_isBlank (hfront c hc)
  rw [isComment, trimStart, List.append_assoc, List.dropWhile_append_of_pos hspace]
  rfl

theorem isComment_of_both {w b : Text} {k : Nat}
    (h : both (atLeast k isBlank) hashComment (w ++ b) = some w.length) : isComment w = true := by
  obtain ⟨j, m, hblanks, hcomment, hlength⟩ := both_eq_some_iff.1 h
  obtain ⟨front, cs, hsplit, hfront, hrun⟩ := exists_run isBlank (w ++ b)
  have hj : j = front.length := by
    rw [atLeast, ← hrun] at hblanks
    split at hblanks
    · exact (Option.some.inj hblanks).symm
    · cases hblanks
  rw [hsplit, hj, List.drop_left] at hcomment
  obtain ⟨d, rest, rfl, -, rfl⟩ := hashComment_eq_some_iff.1 hcomment
  exact isComment_of_blanks hsplit hfront (by omega)

/-- **A lexeme with an equals sign** is a comment, a run of equals signs, one alone, or what the
rule of keys takes. -/
theorem Rule.cases_of_equals {g : Grammar} {lineStart : Bool} {w b : Text} {rule : Rule}
    (h : rule.extent? g lineStart (w ++ b) = some w.length) (hequals : '=' ∈ w) :
    isComment w = true ∨ isRunOf '=' 3 w = true ∨ w = ['='] ∨ rule = .headerKey := by
  have hsign : rule.canStart lineStart = (fun c => c == '#') → isComment w = true := by
    intro hstart
    obtain ⟨c, cs, rfl⟩ := List.exists_cons_of_ne_nil (List.ne_nil_of_mem hequals)
    have hc : c = '#' := by
      by_contra hc
      have hnone := rule.startsWith g lineStart c (cs ++ b) (by rw [hstart]; simp [hc])
      cases h.symm.trans hnone
    rw [hc]
    rfl
  by_cases htakes : rule.TakesEquals
  · cases rule with
    | argumentTag => exact Or.inl (hsign rfl)
    | hashName => exact Or.inl (hsign rfl)
    | hashMark => exact Or.inl (hsign rfl)
    | headerKey => exact Or.inr (Or.inr (Or.inr rfl))
    | lineComment =>
      cases lineStart with
      | false => cases h
      | true => exact Or.inl (isComment_of_both (k := 0) h)
    | trailingComment => exact Or.inl (isComment_of_both h)
    | headerDelimiter =>
      cases lineStart with
      | false => cases h
      | true =>
        obtain ⟨u, rest, hsplit, hu, hrun⟩ := exists_run (· == '=') (w ++ b)
        simp only [Rule.extent?, if_true, atLeast, ← hrun] at h
        split at h
        · next hthree =>
          obtain rfl : w = u := (List.append_inj hsplit (Option.some.inj h).symm).1
          exact Or.inr (Or.inl (isRunOf_iff.2
            ⟨_, hthree, List.eq_replicate_of_mem fun d hd => beq_iff_eq.1 (hu d hd)⟩))
        · cases h
    | other =>
      obtain ⟨c, rfl⟩ := List.length_eq_one_iff.1 (Option.some.inj h).symm
      rw [List.mem_singleton.1 hequals]
      exact Or.inr (Or.inr (Or.inl rfl))
    | _ => exact absurd htakes (by decide)
  · obtain ⟨w', rest, hsplit, hlength, hall⟩ :=
      Rule.takes_of_not_takesEquals g lineStart htakes _ _ h
    obtain rfl : w = w' := (List.append_inj hsplit hlength).1
    exact absurd (hall _ hequals) (by decide)

end TemplateStyler
