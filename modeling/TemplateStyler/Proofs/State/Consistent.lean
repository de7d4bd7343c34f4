import Mathlib.Data.List.Basic
import TemplateStyler.State.Step

/-!
# Consistent states

The states that a template can reach are consistent: a string knows its quote and what to return
to, and a language comment stands in the markup. From a consistent state every lexeme has a step,
and the state after it is consistent again, so that a run never fails.

* `Mode.outcomes` lists what a lexeme can give in a mode. `Registry.transition_mem_outcomes` shows
  that nothing else is given, so that facts about all transitions are read off the lists.
* `Registry.next` is the state after a lexeme, `Registry.step_eq_next` the step from a consistent
  state and `Registry.consistent_next` the invariant.
* `State.InLineString`: a string is open that ends with its line. A newline closes it
  (`not_inLineString_next`) and only a quote opens it (`inLineString_of_next`).
* `Registry.next_string` says how a string goes on and ends; `Registry.quote_of_next` how it opens.
-/

namespace TemplateStyler

open Shape

/-- A state that a template can reach. -/
structure State.Consistent (s : State) : Prop where
  /-- The style of a string is that of a quote. -/
  quote : s.mode = .string → s.style.closingQuote?.isSome = true
  /-- Strings stand in scripts. -/
  previous : s.mode = .string → s.previous = .script ∨ s.previous = .expression
  /-- Language comments stand in the markup. -/
  comment : s.style = .languageComment → s.mode = .markup

theorem State.consistent_of_ne {s : State} (hmode : s.mode ≠ .string)
    (hstyle : s.style ≠ .languageComment) : s.Consistent :=
  ⟨fun h => absurd h hmode, fun h => absurd h hmode, fun h => absurd h hstyle⟩

theorem State.consistent_initial : State.initial.Consistent :=
  State.consistent_of_ne (by decide) (by decide)

theorem State.Consistent.previous_ne {s : State} (h : s.Consistent) (hmode : s.mode = .string) :
    s.previous ≠ .string := by
  rcases h.previous hmode with hprevious | hprevious <;> rw [hprevious] <;> decide

theorem State.Consistent.style_ne {s : State} (h : s.Consistent) (hmode : s.mode = .string) :
    s.style ≠ .languageComment := by
  intro hcomment
  rw [h.comment hcomment] at hmode
  cases hmode

/-- A string is open that ends with its line. -/
def State.InLineString (s : State) : Prop := s.mode = .string ∧ s.style.isSingleLine = true

/-! ### Outcomes -/

/-- What a lexeme can give in a script block or an inline expression. -/
def Mode.scriptOutcomes (mode : Mode) : List Transition :=
  [⟨.singleQuoteString, .string⟩, ⟨.doubleQuoteString, .string⟩,
   ⟨.tripleSingleQuoteString, .string⟩, ⟨.tripleDoubleQuoteString, .string⟩, ⟨.keyword, mode⟩,
   ⟨.builtin, mode⟩, ⟨.integer, mode⟩, ⟨.scriptComment, mode⟩, ⟨.scriptBody, mode⟩]

/-- What a lexeme can give in a mode, by its style and the mode after it. In a string this depends
on the quote as well. -/
def Mode.outcomes : Mode → List Transition
  | .markup =>
    [⟨.plain, .markup⟩, ⟨.tag, .markup⟩, ⟨.variable, .markup⟩, ⟨.comment, .markup⟩,
     ⟨.macroName, .markup⟩, ⟨.languageComment, .markup⟩, ⟨.correctAnswer, .markup⟩,
     ⟨.incorrectAnswer, .markup⟩, ⟨.neutralizedAnswer, .markup⟩, ⟨.alternativeVersion, .markup⟩,
     ⟨.blockDelimiter, .script⟩, ⟨.tag, .expression⟩, ⟨.inlineExpression, .expression⟩,
     ⟨.conditionalAnswer, .expression⟩, ⟨.headerDelimiter, .header⟩, ⟨.coreDelimiter, .core⟩]
  | .script => ⟨.blockDelimiter, .markup⟩ :: ⟨.blockDelimiter, .script⟩ :: scriptOutcomes .script
  | .expression => ⟨.blockDelimiter, .script⟩ :: ⟨.tag, .markup⟩ :: scriptOutcomes .expression
  | .header =>
    [⟨.headerDelimiter, .markup⟩, ⟨.headerComment, .header⟩, ⟨.headerKey, .header⟩,
     ⟨.headerBody, .header⟩]
  | .core =>
    [⟨.disabledInclusion, .core⟩, ⟨.directoryChange, .core⟩, ⟨.inclusion, .core⟩,
     ⟨.coreDelimiter, .markup⟩, ⟨.coreBody, .core⟩]
  | .string => []

namespace Registry

variable (r : Registry)

/-- The state after a lexeme, whatever styles the modes around it admit. -/
def next (lexeme : List Char) (s : State) : State :=
  let next := r.transition lexeme s
  ⟨next.style, next.mode, if next.mode = s.mode then s.previous else s.mode⟩

/-! ### What a transition can give -/

theorem ofQuote?_mem {quote : List Char} {style : Style} (h : Style.ofQuote? quote = some style) :
    style = .singleQuoteString ∨ style = .doubleQuoteString ∨ style = .tripleSingleQuoteString ∨
      style = .tripleDoubleQuoteString := by
  unfold Style.ofQuote? at h
  split_ifs at h <;> cases h <;> simp

/-- A choice is an outcome if both of its branches are. -/
theorem ite_mem {c : Prop} [Decidable c] {t t' : Transition} {outcomes : List Transition}
    (h : t ∈ outcomes) (h' : t' ∈ outcomes) : (if c then t else t') ∈ outcomes := by
  split
  · exact h
  · exact h'

theorem core_mem_outcomes (lexeme : List Char) : coreTransition lexeme ∈ Mode.outcomes .core := by
  unfold coreTransition
  repeat refine ite_mem (by decide) ?_
  decide

theorem header_mem_outcomes (lexeme : List Char) :
    r.headerTransition lexeme ∈ Mode.outcomes .header := by
  unfold headerTransition
  repeat refine ite_mem (by decide) ?_
  decide

theorem script_mem_outcomes {mode : Mode} (hmode : mode = .script ∨ mode = .expression)
    (lexeme : List Char) : r.scriptTransition mode lexeme ∈ mode.outcomes := by
  unfold scriptTransition
  cases hquote : Style.ofQuote? lexeme with
  | some style =>
    simp only
    rcases ofQuote?_mem hquote with rfl | rfl | rfl | rfl <;> rcases hmode with rfl | rfl <;> decide
  | none =>
    simp only
    rcases hmode with rfl | rfl <;> repeat refine ite_mem (by decide) ?_
    all_goals decide

theorem hash_mem_outcomes (name : List Char) : r.hashTransition name ∈ Mode.outcomes .markup := by
  unfold hashTransition
  repeat refine ite_mem (by decide) ?_
  decide

theorem markup_mem_outcomes (lexeme : List Char) :
    r.markupTransition lexeme ∈ Mode.outcomes .markup := by
  unfold markupTransition
  split
  · exact r.hash_mem_outcomes _
  · repeat refine ite_mem (by decide) ?_
    decide

theorem open_mem_outcomes {mode : Mode}
    (hmode : mode = .markup ∨ mode = .script ∨ mode = .expression) (lexeme : List Char) :
    r.openTransition mode lexeme ∈ mode.outcomes := by
  unfold openTransition
  split_ifs with hdots hm hopen hclose hbrace hscript
  · rw [hm]
    decide
  · rcases hmode with rfl | rfl | rfl
    · decide
    · exact absurd rfl hm
    · decide
  · rcases hmode with rfl | rfl | rfl <;> decide
  · rw [hclose.1]
    decide
  · rw [hbrace.1]
    decide
  · exact r.script_mem_outcomes hscript lexeme
  · obtain rfl : mode = .markup := hmode.resolve_right hscript
    exact r.markup_mem_outcomes lexeme

/-- **Outside of strings every transition is an outcome of its mode.** -/
theorem transition_mem_outcomes {s : State} (hs : s.Consistent) (hmode : s.mode ≠ .string)
    (lexeme : List Char) : r.transition lexeme s ∈ s.mode.outcomes := by
  unfold transition
  split_ifs with hcomment hnewline
  · rw [hs.comment hcomment]
    decide
  · rw [hs.comment hcomment]
    decide
  · cases hm : s.mode with
    | string => exact absurd hm hmode
    | core => exact core_mem_outcomes lexeme
    | header => exact r.header_mem_outcomes lexeme
    | markup => exact r.open_mem_outcomes (Or.inl rfl) lexeme
    | script => exact r.open_mem_outcomes (Or.inr (Or.inl rfl)) lexeme
    | expression => exact r.open_mem_outcomes (Or.inr (Or.inr rfl)) lexeme

theorem ofQuote?_of_openTransition {mode : Mode} {lexeme : List Char}
    (h : (r.openTransition mode lexeme).mode = .string) :
    Style.ofQuote? lexeme = some (r.openTransition mode lexeme).style := by
  unfold openTransition at h ⊢
  split_ifs at h ⊢ with _ hm _ _ _ hscript
  · unfold scriptTransition at h ⊢
    cases hquote : Style.ofQuote? lexeme with
    | some style => rfl
    | none =>
      rw [hquote] at h
      simp only at h
      split_ifs at h <;> rcases hscript with rfl | rfl <;> cases h
  · have hmarkup : ∀ t ∈ Mode.outcomes .markup, t.mode ≠ .string := by decide
    exact absurd h (hmarkup _ (r.markup_mem_outcomes lexeme))

/-- What holds of every transition from a mode: its style is admitted, it opens a string only with a
quote, and it gives up no string. -/
structure Regular (mode : Mode) (lexeme : List Char) (t : Transition) : Prop where
  admitted : (mode.admits t.style || t.mode.admits t.style) = true
  quote : t.mode = .string → Style.ofQuote? lexeme = some t.style ∧
    (mode = .script ∨ mode = .expression)
  comment : t.style = .languageComment → t.mode = .markup
  kept : t.style ≠ .unclosedString

/-- **Outside of strings every transition is regular.** -/
theorem regular_transition {s : State} (hs : s.Consistent) (hmode : s.mode ≠ .string)
    (lexeme : List Char) : Regular s.mode lexeme (r.transition lexeme s) := by
  have hall : ∀ mode : Mode, ∀ t ∈ mode.outcomes,
      (mode.admits t.style || t.mode.admits t.style) = true ∧
        (t.mode = .string → mode = .script ∨ mode = .expression) ∧
        (t.style = .languageComment → t.mode = .markup) ∧ t.style ≠ .unclosedString := by
    intro mode
    cases mode <;> decide
  obtain ⟨hadmitted, hscript, hcomment, hkept⟩ :=
    hall _ _ (r.transition_mem_outcomes hs hmode lexeme)
  refine ⟨hadmitted, fun hstring => ⟨?_, hscript hstring⟩, hcomment, hkept⟩
  -- only a script or an expression opens a string, and neither carries a language comment
  have hmode' := hscript hstring
  have hcomment' : s.style ≠ .languageComment := by
    intro hstyle
    rw [hs.comment hstyle] at hmode'
    simp at hmode'
  have hopen : r.transition lexeme s = r.openTransition s.mode lexeme := by
    rw [transition, if_neg hcomment']
    rcases hmode' with hm | hm <;> rw [hm]
  rw [hopen] at hstring ⊢
  exact r.ofQuote?_of_openTransition hstring

theorem transition_string {s : State} (hs : s.Consistent) (hmode : s.mode = .string)
    (lexeme : List Char) : r.transition lexeme s = stringTransition s.style s.previous lexeme := by
  rw [transition, if_neg (hs.style_ne hmode), hmode]

/-! ### Steps -/

/-- **From a consistent state every lexeme has a step.** -/
theorem step_eq_next {s : State} (hs : s.Consistent) (lexeme : List Char) :
    r.step lexeme s = .ok (r.next lexeme s) := by
  have hadmitted : (s.mode.admits (r.transition lexeme s).style ||
      (r.transition lexeme s).mode.admits (r.transition lexeme s).style) = true := by
    by_cases hmode : s.mode = .string
    · have hquote := hs.quote hmode
      rw [r.transition_string hs hmode, hmode]
      unfold stringTransition
      cases hstyle : s.style <;> rw [hstyle] at hquote <;>
        first | exact absurd hquote (by decide) | (split_ifs <;> rfl)
    · exact (r.regular_transition hs hmode lexeme).admitted
  simp only [step, hadmitted, if_true]
  rfl

/-- How a string goes on: it is given up by the end of its line, or closed by its quote, or open. -/
theorem next_string {s : State} (hs : s.Consistent) (hmode : s.mode = .string)
    (lexeme : List Char) :
    r.next lexeme s =
      if isNewline lexeme && s.style.isSingleLine then ⟨.unclosedString, s.previous, .string⟩
      else if s.style.closingQuote? = some lexeme then ⟨s.style, s.previous, .string⟩
      else s := by
  have hprevious := hs.previous_ne hmode
  rw [next, r.transition_string hs hmode, stringTransition]
  by_cases hnewline : (isNewline lexeme && s.style.isSingleLine) = true
  · simp [hnewline, hmode, hprevious]
  · by_cases hclose : s.style.closingQuote? = some lexeme
    · simp [hnewline, hclose, hmode, hprevious]
    · obtain ⟨style, mode, previous⟩ := s
      simp only at hmode
      subst hmode
      simp [hnewline, hclose]

/-- A string opens with its quote, in a script. -/
theorem quote_of_next {s : State} (hs : s.Consistent) (hmode : s.mode ≠ .string)
    {lexeme : List Char} (h : (r.next lexeme s).mode = .string) :
    Style.ofQuote? lexeme = some (r.next lexeme s).style ∧
      (s.mode = .script ∨ s.mode = .expression) :=
  (r.regular_transition hs hmode lexeme).quote h

/-- Only in a string is anything given up. -/
theorem style_next_ne_unclosed {s : State} (hs : s.Consistent) (hmode : s.mode ≠ .string)
    (lexeme : List Char) : (r.next lexeme s).style ≠ .unclosedString :=
  (r.regular_transition hs hmode lexeme).kept

/-- **The state after a lexeme is consistent again.** -/
theorem consistent_next {s : State} (hs : s.Consistent) (lexeme : List Char) :
    (r.next lexeme s).Consistent := by
  by_cases hmode : s.mode = .string
  · rw [r.next_string hs hmode]
    split_ifs with hnewline hclose
    · exact State.consistent_of_ne (hs.previous_ne hmode) (by simp)
    · exact State.consistent_of_ne (hs.previous_ne hmode) (hs.style_ne hmode)
    · exact hs
  · have hregular := r.regular_transition hs hmode lexeme
    refine ⟨fun h => ?_, fun h => ?_, hregular.comment⟩
    · rw [show (r.next lexeme s).style = (r.transition lexeme s).style from rfl,
        Style.closingQuote?_ofQuote? (hregular.quote h).1]
      rfl
    · have hne : (r.transition lexeme s).mode ≠ s.mode := by
        rw [show (r.transition lexeme s).mode = .string from h]
        exact Ne.symm hmode
      simp only [next, if_neg hne]
      exact (hregular.quote h).2

/-! ### Strings that end with their line -/

theorem isNewline_iff {lexeme : List Char} :
    isNewline lexeme = true ↔ lexeme = ['\n'] ∨ lexeme = ['\r', '\n'] := by
  simp [isNewline]

theorem ofQuote?_of_isNewline {lexeme : List Char} (h : isNewline lexeme = true) :
    Style.ofQuote? lexeme = none := by
  rcases isNewline_iff.1 h with rfl | rfl <;> decide

/-- After a newline no such string is open. -/
theorem not_inLineString_next {s : State} (hs : s.Consistent) {lexeme : List Char}
    (h : isNewline lexeme = true) : ¬ (r.next lexeme s).InLineString := by
  rintro ⟨hmode', hsingle⟩
  by_cases hmode : s.mode = .string
  · rw [r.next_string hs hmode] at hmode' hsingle
    split_ifs at hmode' hsingle with hnewline hclose
    · cases hsingle
    · simp [h, hsingle] at hnewline
    · simp [h, hsingle] at hnewline
  · have := (r.quote_of_next hs hmode hmode').1
    rw [ofQuote?_of_isNewline h] at this
    cases this

/-- A lexeme that is no quote opens no such string. -/
theorem inLineString_of_next {s : State} (hs : s.Consistent) {lexeme : List Char}
    (hquote : Style.ofQuote? lexeme = none) (h : (r.next lexeme s).InLineString) :
    s.InLineString := by
  obtain ⟨hmode', hsingle⟩ := h
  by_cases hmode : s.mode = .string
  · refine ⟨hmode, ?_⟩
    rw [r.next_string hs hmode] at hsingle
    split_ifs at hsingle with hnewline hclose
    · cases hsingle
    · exact hsingle
    · exact hsingle
  · have := (r.quote_of_next hs hmode hmode').1
    rw [hquote] at this
    cases this

end Registry

end TemplateStyler
