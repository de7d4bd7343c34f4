import TemplateStyler.Proofs.Lexeme.Partition
import TemplateStyler.Proofs.Lexeme.Quoted
import TemplateStyler.Proofs.Text.Lines
import TemplateStyler.Proofs.Text.Returns

/-!
# Scans of texts with carriage returns

The rules treat a newline with a carriage return before it as they treat a newline alone. So a text
and its twin with carriage returns have the same lexemes, but for the carriage returns.

* `Lexeme.Twin`: what a reader takes from the twin of a text is the twin of what it takes from the
  text.
* `Rule.twin`: every rule but the last reads so, if no name of the registry contains a line end.
* `Grammar.map_text_scan_withReturns`: **the lexemes of the twin are the twins of the lexemes.**
* `Grammar.eq_newline_or_separates`: the lexemes that differ from their twins are newlines and
  separators of versions.
-/

namespace TemplateStyler

open Text

/-- No name of the registry contains a carriage return or a newline. -/
def Registry.NoLineEnds (r : Registry) : Prop := ∀ name ∈ r.names, WithinLine name

instance (r : Registry) : Decidable r.NoLineEnds :=
  List.decidableBAll (fun name => WithinLine name) r.names

namespace Registry.NoLineEnds

variable {r : Registry}

theorem argumentTags (hr : r.NoLineEnds) : ∀ name ∈ r.argumentTags, WithinLine name :=
  fun name hname => hr name (by simp [names, hname])

theorem builtins (hr : r.NoLineEnds) : ∀ name ∈ r.builtins, WithinLine name :=
  fun name hname => hr name (by simp [names, hname])

theorem headerKeys (hr : r.NoLineEnds) : ∀ name ∈ r.headerKeys, WithinLine name :=
  fun name hname => hr name (by simp [names, hname])

theorem onOneLine (hr : r.NoLineEnds) : r.OnOneLine where
  argumentTags name hname := (hr.argumentTags name hname).newline_not_mem
  headerKeys name hname := (hr.headerKeys name hname).newline_not_mem

end Registry.NoLineEnds

namespace Lexeme

/-! ### Readers -/

/-- What a reader takes from the twin of a text is the twin of what it takes from the text. -/
def TwinOn (reader : Text → Option Nat) (cs : Text) : Prop :=
  reader (withReturns cs) = (reader cs).map fun n => (withReturns (cs.take n)).length

/-- A reader that reads so wherever no carriage return stands. -/
def Twin (reader : Text → Option Nat) : Prop := ∀ cs, '\r' ∉ cs → TwinOn reader cs

/-- Within a run of characters other than newlines the twin is as long as the text. -/
theorem length_withReturns_take {p : Char → Bool} (hnewline : p '\n' = false) {n : Nat} {cs : Text}
    (hn : n ≤ run p cs) : (withReturns (cs.take n)).length = n := by
  have hn' : n ≤ (cs.takeWhile p).length := hn
  have htake : cs.take n = (cs.takeWhile p).take n := by
    rw [List.prefix_iff_eq_take.1 (List.takeWhile_prefix p (l := cs)), List.take_take,
      Nat.min_eq_left hn']
  have hmem : '\n' ∉ (cs.takeWhile p).take n := fun h => by
    have hp := List.mem_takeWhile_imp (List.mem_of_mem_take h)
    rw [hnewline] at hp
    cases hp
  rw [htake, withReturns_of_not_mem hmem, List.length_take, Nat.min_eq_left hn']

theorem run_withReturns {p : Char → Bool} (hreturn : p '\r' = false) (hnewline : p '\n' = false)
    (cs : Text) : run p (withReturns cs) = run p cs := by
  rw [run, takeWhile_withReturns hreturn hnewline, run]

theorem twin_atLeast {p : Char → Bool} (hreturn : p '\r' = false) (hnewline : p '\n' = false)
    (k : Nat) : Twin (atLeast k p) := by
  intro cs _
  rw [TwinOn, atLeast, atLeast, run_withReturns hreturn hnewline]
  split
  · rw [Option.map_some, length_withReturns_take hnewline (Nat.le_refl _)]
  · rfl

theorem twin_literal {word : Text} (hword : WithinLine word) :
    Twin (literal word) := by
  intro cs _
  simp only [TwinOn, literal, List.isPrefixOf_iff_prefix, prefix_withReturns_iff hword]
  split
  · next h =>
    obtain ⟨rest, rfl⟩ := h
    rw [Option.map_some, List.take_left, withReturns_of_not_mem hword.newline_not_mem]
  · rfl

theorem twinOn_findSome? {α : Type} (reader : α → Text → Option Nat) {items : List α} {cs : Text}
    (h : ∀ x ∈ items, TwinOn (reader x) cs) :
    TwinOn (fun cs => items.findSome? fun x => reader x cs) cs := by
  rw [TwinOn, List.map_findSome?]
  induction items with
  | nil => rfl
  | cons x items ih =>
    obtain ⟨hx, hitems⟩ := List.forall_mem_cons.1 h
    rw [List.findSome?_cons, List.findSome?_cons, ih hitems, hx]
    rfl

theorem twin_oneOf {words : List String}
    (h : ∀ word ∈ words, WithinLine word.toList) : Twin (oneOf words) :=
  fun cs hcs => twinOn_findSome? (fun word : String => literal word.toList)
    fun word hword => twin_literal (h word hword) cs hcs

theorem Twin.both {first second : Text → Option Nat} (h1 : Twin first) (h2 : Twin second) :
    Twin (both first second) := by
  intro cs hcs
  rw [TwinOn, Lexeme.both, Lexeme.both, h1 cs hcs]
  cases first cs with
  | none => rfl
  | some n =>
    have hrest := h2 (cs.drop n) fun hmem => hcs (List.mem_of_mem_drop hmem)
    rw [Option.map_some, Option.bind_some, Option.bind_some, drop_withReturns, hrest,
      Option.map_map, Option.map_map]
    congr 1
    funext m
    simp [List.take_add]

theorem Twin.optional {reader : Text → Option Nat} (h : Twin reader) : Twin (optional reader) := by
  intro cs hcs
  rw [TwinOn, Lexeme.optional, Lexeme.optional, h cs hcs, Option.map_some]
  cases reader cs <;> rfl

/-- A second reader matters only where the first one takes nothing. -/
theorem twinOn_or {first second : Text → Option Nat} {cs : Text} (h1 : TwinOn first cs)
    (h2 : first cs = none → TwinOn second cs) :
    TwinOn (fun cs => (first cs).or (second cs)) cs := by
  rw [TwinOn, h1, Option.map_or]
  cases hfirst : first cs with
  | none => exact h2 hfirst
  | some n => rfl

theorem Twin.or {first second : Text → Option Nat} (h1 : Twin first) (h2 : Twin second) :
    Twin fun cs => (first cs).or (second cs) := fun cs hcs =>
  twinOn_or (h1 cs hcs) fun _ => h2 cs hcs

theorem twin_named {names : List Text} (hnames : ∀ name ∈ names, WithinLine name)
    {reader : Text → Option Nat} (h : Twin reader) : Twin (named names reader) := fun cs hcs =>
  twinOn_findSome? (fun name : Text => Lexeme.both (literal name) reader)
    fun name hname => (twin_literal (hnames name hname)).both h cs hcs

theorem twin_skipBlanks : Twin skipBlanks := twin_atLeast (by decide) (by decide) 0

theorem Twin.afterBlanks {reader : Text → Option Nat} (h : Twin reader) :
    Twin (afterBlanks reader) := by
  intro cs hcs
  -- the numbers of blanks tried are those of the text
  rw [TwinOn, Lexeme.afterBlanks, run_withReturns (by decide) (by decide)]
  refine twinOn_findSome? (fun n cs => (reader (cs.drop n)).map (n + ·)) ?_
  intro n hn
  rw [List.mem_reverse, List.mem_range, Nat.lt_succ_iff] at hn
  have hlength := length_withReturns_take (by decide) hn
  have hdrop : (withReturns cs).drop n = withReturns (cs.drop n) := by
    conv_lhs => rw [← hlength]
    exact drop_withReturns n cs
  have hrest := h (cs.drop n) fun hmem => hcs (List.mem_of_mem_drop hmem)
  rw [TwinOn, hdrop, hrest, Option.map_map, Option.map_map]
  congr 1
  funext m
  simp [List.take_add, hlength]

theorem twin_hashComment : Twin hashComment := by
  refine (twin_literal (by decide)).both (Twin.both ?_ (twin_atLeast (by decide) (by decide) 0))
  intro cs _
  cases cs with
  | nil => rfl
  | cons c cs =>
    by_cases hc : c = '\n'
    · subst hc
      rfl
    · rw [TwinOn, withReturns_cons hc, List.head?_cons, List.head?_cons]
      split
      · simp [withReturns_cons hc]
      · rfl

theorem twin_annotation : Twin annotation :=
  (twin_literal (by decide)).both
    ((twin_atLeast (by decide) (by decide) 0).both (twin_literal (by decide)))

theorem twin_lineEnd : Twin lineEnd := by
  intro cs hcs
  cases cs with
  | nil => rfl
  | cons c cs =>
    rw [List.mem_cons, not_or] at hcs
    by_cases hc : c = '\n'
    · subst hc
      rfl
    · have hnone : ∀ cs, lineEnd (c :: cs) = none := by
        intro cs
        unfold lineEnd
        split <;> simp_all
      rw [TwinOn, withReturns_cons hc, hnone, hnone, Option.map_none]

theorem twin_newline : Twin (oneOf ["\r\n", "\n"]) := by
  intro cs hcs
  cases cs with
  | nil => rfl
  | cons c cs =>
    rw [List.mem_cons, not_or] at hcs
    by_cases hc : c = '\n'
    · subst hc
      rfl
    · have hnone : ∀ cs, oneOf ["\r\n", "\n"] (c :: cs) = none := fun cs =>
        startsWith_oneOf (p := fun c => c == '\r' || c == '\n') (by decide) c cs
          (by simp [hc, Ne.symm hcs.1])
      rw [TwinOn, withReturns_cons hc, hnone, hnone, Option.map_none]

theorem twin_onLineStart {reader : Text → Option Nat} (h : Twin reader) (lineStart : Bool) :
    Twin fun cs => if lineStart then reader cs else none := by
  cases lineStart with
  | true => exact h
  | false => exact fun cs _ => rfl

end Lexeme

/-! ### Rules -/

open Lexeme

/-- **Every rule but the last reads from the twin what it reads from the text.** The last one would
take the carriage return without its newline. -/
theorem Rule.twin {r : Registry} (hr : r.NoLineEnds) (lineStart : Bool) {rule : Rule}
    (hrule : rule ≠ .other) : Twin fun cs => rule.extent? r.grammar lineStart cs := by
  have htags : ∀ name ∈ r.grammar.argumentTags, WithinLine name :=
    fun name hname => hr.argumentTags name (mem_longestFirst.1 hname)
  have hkeys : ∀ name ∈ r.grammar.headerKeys, WithinLine name :=
    fun name hname => hr.headerKeys name (mem_longestFirst.1 hname)
  have hdigits : Twin (atLeast 1 Char.isDigit) := twin_atLeast (by decide) (by decide) 1
  have hpoint : Twin (literal ['.']) := twin_literal (by decide)
  cases rule with
  | dots => exact twin_onLineStart (twin_atLeast (by decide) (by decide) 4) lineStart
  | argumentTag =>
    exact (twin_literal (by decide)).both (twin_named htags (twin_literal (by decide)))
  | hashName =>
    exact (twin_literal (by decide)).both
      ((twin_atLeast (by decide) (by decide) 1).both twin_annotation.optional)
  | disabledInclusion => exact twin_onLineStart (twin_oneOf (by decide)) lineStart
  | directoryChange =>
    exact twin_onLineStart ((twin_literal (by decide)).both
      ((twin_atLeast (by decide) (by decide) 1).both (twin_oneOf (by decide)))) lineStart
  | inclusion => exact twin_onLineStart (twin_oneOf (by decide)) lineStart
  | headerDelimiter => exact twin_onLineStart (twin_atLeast (by decide) (by decide) 3) lineStart
  | coreOpening => exact twin_onLineStart (twin_atLeast (by decide) (by decide) 3) lineStart
  | coreClosing => exact twin_onLineStart (twin_atLeast (by decide) (by decide) 3) lineStart
  | headerKey =>
    exact twin_onLineStart
      (twin_named hkeys (twin_skipBlanks.both (twin_literal (by decide)))).afterBlanks lineStart
  | lineComment => exact twin_onLineStart (twin_skipBlanks.both twin_hashComment) lineStart
  | trailingComment => exact (twin_atLeast (by decide) (by decide) 1).both twin_hashComment
  | hashMark => exact twin_oneOf (by decide)
  | answer => exact twin_onLineStart (twin_oneOf (by decide)) lineStart
  | conditionalAnswer => exact twin_oneOf (by decide)
  | alternativeVersion =>
    exact twin_onLineStart ((twin_literal (by decide)).both (twin_skipBlanks.both twin_lineEnd))
      lineStart
  | escapedQuote => exact twin_oneOf (by decide)
  | macroName =>
    exact ((twin_literal (by decide)).both (twin_atLeast (by decide) (by decide) 1)).or
      (twin_oneOf (by decide))
  | tripleQuote => exact twin_oneOf (by decide)
  | newline => exact twin_newline
  | blanks => exact twin_atLeast (by decide) (by decide) 1
  | number =>
    exact ((hdigits.both (hpoint.both hdigits)).or hdigits).or (hpoint.both hdigits)
  | word => exact twin_atLeast (by decide) (by decide) 1
  | other => exact absurd rfl hrule

/-! ### Scans -/

namespace Grammar

variable {r : Registry} {cs : Text}

/-- The next lexeme of the twin is as long as the twin of the next lexeme. -/
theorem extent_withReturns (hr : r.NoLineEnds) (lineStart : Bool) (hne : cs ≠ [])
    (hcs : '\r' ∉ cs) :
    r.grammar.extent lineStart (withReturns cs) =
      (withReturns (cs.take (r.grammar.extent lineStart cs))).length := by
  have hall : ∀ cs, Rule.all.findSome? (Rule.extent? r.grammar lineStart cs) =
      (Rule.all.dropLast.findSome? fun rule => rule.extent? r.grammar lineStart cs).or (some 1) :=
    fun cs => @List.findSome?_append _ _ (Rule.extent? r.grammar lineStart cs) Rule.all.dropLast
      [Rule.other]
  have htwin : TwinOn (fun cs => Rule.all.findSome? (Rule.extent? r.grammar lineStart cs)) cs := by
    simp only [hall]
    refine twinOn_or
      (twinOn_findSome? (fun (rule : Rule) cs => rule.extent? r.grammar lineStart cs) ?_)
      fun hnone => ?_
    · intro rule hrule
      refine Rule.twin hr lineStart ?_ cs hcs
      rintro rfl
      exact absurd hrule (by decide)
    · -- a newline is taken by its own rule
      obtain ⟨c, rest, rfl⟩ := List.exists_cons_of_ne_nil hne
      have hc : c ≠ '\n' := by
        rintro rfl
        have hrule := List.findSome?_eq_none_iff.1 hnone .newline (by decide)
        cases hrule
      rw [TwinOn, Option.map_some, List.take_succ_cons, List.take_zero, withReturns_cons hc]
      rfl
  have hne' : withReturns cs ≠ [] := fun h => hne (withReturns_eq_nil.1 h)
  rw [TwinOn, (findSome?_eq_extent _ _ hne').1, (findSome?_eq_extent _ _ hne).1] at htwin
  exact Option.some.inj htwin

/-- **The lexemes of the twin are the twins of the lexemes.** -/
theorem map_text_scan_withReturns (hr : r.NoLineEnds) (hcs : '\r' ∉ cs) (pos pos' : Nat)
    (lineStart : Bool) :
    (r.grammar.scan pos' lineStart (withReturns cs)).map Lexeme.text =
      ((r.grammar.scan pos lineStart cs).map Lexeme.text).map withReturns := by
  fun_induction scan r.grammar pos lineStart cs generalizing pos' with
  | case1 => simp [scan]
  | case2 pos lineStart c cs n lexeme ih =>
    have hextent := extent_withReturns hr lineStart (List.cons_ne_nil c cs) hcs
    have hsplit : withReturns (c :: cs) =
        withReturns lexeme.text ++ withReturns ((c :: cs).drop n) := by
      rw [← withReturns_append, List.take_append_drop]
    have hmem : lexeme ∈ r.grammar.scan pos lineStart (c :: cs) := by
      rw [scan]
      exact List.mem_cons_self
    have hne : withReturns lexeme.text ≠ [] := fun h =>
      ne_nil_of_mem_scan hmem (withReturns_eq_nil.1 h)
    rw [hsplit] at hextent ⊢
    rw [scan_of_extent hne hextent, List.map_cons, List.map_cons, List.map_cons,
      getLast?_withReturns]
    exact congrArg _ (ih (fun h => hcs (List.mem_of_mem_drop h)) _)

/-! ### Lexemes with a newline -/

/-- A separator of versions with its newline. -/
def Separates (lexeme : Text) : Prop :=
  ∃ blanks, lexeme = 'O' :: 'R' :: blanks ∧ (∀ c ∈ blanks, isSpace c = true) ∧
    blanks.getLast? = some '\n'

/-- What the rule for separators takes: the separator and blanks, to the end of the line. -/
theorem take_of_alternativeVersion {g : Grammar} {lineStart : Bool} {n : Nat}
    (h : Rule.extent? g lineStart cs .alternativeVersion = some n) :
    ∃ blanks ending, cs.take n = 'O' :: 'R' :: (blanks ++ ending) ∧
      (∀ c ∈ blanks, isBlank c = true) ∧ ending ∈ [[], ['\n'], ['\r', '\n']] := by
  simp only [Rule.extent?] at h
  split at h
  · obtain ⟨_, m, hliteral, hrest, rfl⟩ := both_eq_some_iff.1 h
    obtain ⟨rest, rfl, rfl⟩ := literal_eq_some_iff.1 hliteral
    rw [List.drop_left] at hrest
    obtain ⟨_, k, hskip, hend, rfl⟩ := both_eq_some_iff.1 hrest
    obtain ⟨blanks, behind, rfl, hblanks, hlength⟩ := exists_run isBlank rest
    rw [skipBlanks, atLeast, if_pos (Nat.zero_le _), ← hlength, Option.some.injEq] at hskip
    subst hskip
    rw [List.drop_left] at hend
    refine ⟨blanks, behind.take k, ?_, hblanks, ?_⟩
    · rw [List.take_length_add_append, List.take_length_add_append]
      rfl
    · unfold lineEnd at hend
      split at hend <;> cases hend <;> simp
  · cases h

/-- **A lexeme that is not its own twin** is a newline or a separator of versions. -/
theorem eq_newline_or_separates (hr : r.OnOneLine) {lineStart : Bool} (hcs : '\r' ∉ cs)
    (h : '\n' ∈ cs.take (r.grammar.extent lineStart cs)) :
    cs.take (r.grammar.extent lineStart cs) = ['\n'] ∨
      Separates (cs.take (r.grammar.extent lineStart cs)) := by
  obtain ⟨line, rest, rfl, hline, hn⟩ := exists_line_of_newline_mem hr h
  by_cases hne : line = []
  · subst hne
    rw [hn]
    exact Or.inl rfl
  · have hpos := List.length_pos_iff.2 hne
    rcases rule_of_newline hr hline hne hn (by simp) with hnewline | hversion
    · rcases line_of_newline hnewline (by simp) (by simpa using hpos) with hnil | hreturn
      · exact absurd hnil hne
      · exact absurd (by simp [hreturn]) hcs
    · rw [hn] at h ⊢
      obtain ⟨blanks, ending, htake, hblanks, hending⟩ := take_of_alternativeVersion hversion
      have hmem : '\n' ∈ ending := by
        rw [htake] at h
        simp only [List.mem_cons, List.mem_append, Char.reduceEq, false_or] at h
        exact h.resolve_left fun hblank => absurd (hblanks _ hblank) (by decide)
      obtain ⟨hspaces, hlast⟩ : ending.all isSpace = true ∧ ending.getLast? = some '\n' := by
        simp only [List.mem_cons, List.not_mem_nil, or_false] at hending
        rcases hending with rfl | rfl | rfl
        · cases hmem
        · exact ⟨rfl, rfl⟩
        · exact ⟨rfl, rfl⟩
      refine Or.inr ⟨blanks ++ ending, htake, List.forall_mem_append.2
        ⟨fun c hc => isSpace_of_isBlank (hblanks c hc), List.all_eq_true.1 hspaces⟩, ?_⟩
      rw [List.getLast?_append, hlast]
      rfl

end Grammar

end TemplateStyler
