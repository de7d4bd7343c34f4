import TemplateStyler.Proofs.Lexeme.Returns
import TemplateStyler.Proofs.State.Causes
import TemplateStyler.Proofs.Styler.Compose

/-!
# Styling texts with carriage returns

A text without carriage returns and its twin, in which each newline has one before it, are shown
alike.

* `Registry.transition_newline`, `Registry.transition_separates`: what newlines and separators of
  versions do, in every mode. It does not matter how the line ends.
* `Registry.next_withReturns`: so a lexeme and its twin move the state alike.
* `Registry.styles_map`: lexemes that move the state alike have the same styles.
* `Registry.styleText_withReturns`: **the twin has the twins of the lexemes, in the same styles.**
-/

namespace TemplateStyler

open Text Lexeme Shape

namespace Registry

variable {r : Registry}

/-! ### Newlines and separators -/

/-- No builtin and no keyword contains a newline. -/
theorem not_isBuiltin_of_newline (hr : r.NoLineEnds) {lexeme : Text} (h : '\n' ∈ lexeme) :
    r.isBuiltin lexeme = false := by
  rw [isBuiltin, List.contains_eq_mem, decide_eq_false_iff_not]
  exact fun hmem => (hr.builtins lexeme hmem).newline_not_mem h

theorem not_isKeyword_of_newline {lexeme : Text} (h : '\n' ∈ lexeme) :
    isKeyword lexeme = false := by
  have hall : ∀ word ∈ keywords, '\n' ∉ word := by decide
  rw [isKeyword, List.contains_eq_mem, decide_eq_false_iff_not]
  exact fun hmem => hall lexeme hmem h

/-- The transition of a newline. It ends comments and strings that end with their line, and belongs
to the body elsewhere. -/
def newlineTransition (s : State) : Transition :=
  if s.style = .languageComment then ⟨.plain, .markup⟩
  else match s.mode with
    | .markup => ⟨.plain, .markup⟩
    | .script => ⟨.scriptBody, .script⟩
    | .expression => ⟨.scriptBody, .expression⟩
    | .header => ⟨.headerBody, .header⟩
    | .core => ⟨.coreBody, .core⟩
    | .string => if s.style.isSingleLine then ⟨.unclosedString, s.previous⟩ else ⟨s.style, .string⟩

theorem transition_newline (hr : r.NoLineEnds) {lexeme : Text} (h : isNewline lexeme = true)
    (s : State) : r.transition lexeme s = newlineTransition s := by
  have hmem : '\n' ∈ lexeme := by
    rcases isNewline_iff.1 h with rfl | rfl <;> decide
  have hscript : ∀ mode, r.scriptTransition mode lexeme = ⟨.scriptBody, mode⟩ := by
    intro mode
    rw [scriptTransition, ofQuote?_of_isNewline h, not_isBuiltin_of_newline hr hmem,
      not_isKeyword_of_newline hmem]
    rcases isNewline_iff.1 h with rfl | rfl <;> rfl
  have hstring : stringTransition s.style s.previous lexeme =
      if s.style.isSingleLine then ⟨.unclosedString, s.previous⟩ else ⟨s.style, .string⟩ := by
    rcases isNewline_iff.1 h with rfl | rfl <;> cases s.style <;> rfl
  by_cases hcomment : s.style = .languageComment
  · rw [transition, newlineTransition, if_pos hcomment, if_pos hcomment, h, if_pos rfl]
  · rw [transition, newlineTransition, if_neg hcomment, if_neg hcomment]
    cases hmode : s.mode with
    | string => exact hstring
    | script | expression =>
      simp only [openTransition, hscript]
      rcases isNewline_iff.1 h with rfl | rfl <;> rfl
    | markup | header | core => rcases isNewline_iff.1 h with rfl | rfl <;> rfl

/-! ### Separators -/

/-- The transition of a separator of versions. It is one in the markup, and belongs to the body
elsewhere. -/
def separatorTransition (s : State) : Transition :=
  if s.style = .languageComment then ⟨.languageComment, .markup⟩
  else match s.mode with
    | .markup => ⟨.alternativeVersion, .markup⟩
    | .script => ⟨.scriptBody, .script⟩
    | .expression => ⟨.scriptBody, .expression⟩
    | .header => ⟨.headerBody, .header⟩
    | .core => ⟨.coreBody, .core⟩
    | .string => ⟨s.style, .string⟩

/-- A lexeme with an ending other than the equals sign is no key. -/
theorem not_isKeyLexeme_of_getLast? {lexeme : Text} (h : lexeme.getLast? = some '\n') :
    r.isKeyLexeme lexeme = false := by
  have hsuffix : ¬ (['='].isSuffixOf lexeme = true) := by
    rw [List.isSuffixOf_iff_suffix]
    rintro ⟨key, rfl⟩
    simp at h
  rw [isKeyLexeme, dropSuffix?, if_neg hsuffix]

section Separator

variable {blanks : Text}

theorem isComment_separator : isComment ('O' :: 'R' :: blanks) = false := by
  simp [isComment, trimStart, show isSpace 'O' = false from rfl]

theorem isVersionMarker_separator (hblanks : ∀ c ∈ blanks, isSpace c = true)
    (hlast : blanks.getLast? = some '\n') : isVersionMarker ('O' :: 'R' :: blanks) = true := by
  simpa [isVersionMarker, List.getLast?_cons, hlast] using hblanks

theorem scriptTransition_separator (hr : r.NoLineEnds) (hlast : blanks.getLast? = some '\n')
    (mode : Mode) : r.scriptTransition mode ('O' :: 'R' :: blanks) = ⟨.scriptBody, mode⟩ := by
  have hmem : '\n' ∈ 'O' :: 'R' :: blanks := by simp [List.mem_of_getLast? hlast]
  have hquote : Style.ofQuote? ('O' :: 'R' :: blanks) = none := by simp [Style.ofQuote?]
  have hnumeric : isNumeric ('O' :: 'R' :: blanks) = false := by
    simp [isNumeric, show 'O'.isDigit = false from rfl]
  simp [scriptTransition, hquote, not_isKeyword_of_newline hmem, not_isBuiltin_of_newline hr hmem,
    hnumeric, isComment_separator]

end Separator

theorem transition_separates (hr : r.NoLineEnds) {lexeme : Text} (h : Grammar.Separates lexeme)
    (s : State) : r.transition lexeme s = separatorTransition s := by
  obtain ⟨blanks, rfl, hblanks, hlast⟩ := h
  have hnewline : isNewline ('O' :: 'R' :: blanks) = false := by simp [isNewline]
  have hkey : r.isKeyLexeme ('O' :: 'R' :: blanks) = false :=
    not_isKeyLexeme_of_getLast? (by simp [List.getLast?_cons, hlast])
  have hmarkup : r.markupTransition ('O' :: 'R' :: blanks) = ⟨.alternativeVersion, .markup⟩ := by
    simp [markupTransition, isBlank, isMacro, isVersionMarker_separator hblanks hlast]
  have hstring : stringTransition s.style s.previous ('O' :: 'R' :: blanks) =
      ⟨s.style, .string⟩ := by
    cases s.style <;> simp [stringTransition, hnewline, Style.closingQuote?]
  by_cases hcomment : s.style = .languageComment
  · rw [transition, separatorTransition, if_pos hcomment, if_pos hcomment, hnewline]
    rfl
  · rw [transition, separatorTransition, if_neg hcomment, if_neg hcomment]
    cases hmode : s.mode with
    | string => exact hstring
    | core => simp [coreTransition, isRunOf_cons_of_ne]
    | header => simp [headerTransition, isRunOf_cons_of_ne, isComment_separator, hkey]
    | markup => simp [openTransition, isRunOf_cons_of_ne, hmarkup]
    | script | expression =>
      simp [openTransition, isRunOf_cons_of_ne, scriptTransition_separator hr hlast]

/-! ### Lexemes and their twins -/

theorem separates_withReturns {lexeme : Text} (h : Grammar.Separates lexeme) :
    Grammar.Separates (withReturns lexeme) := by
  obtain ⟨blanks, rfl, hblanks, hlast⟩ := h
  refine ⟨withReturns blanks, ?_, fun c hc => ?_, by rw [getLast?_withReturns, hlast]⟩
  · rw [withReturns_cons (by decide), withReturns_cons (by decide)]
  · obtain ⟨d, hd, hmem⟩ := List.mem_flatMap.1 hc
    rw [withReturn] at hmem
    split at hmem
    · simp only [List.mem_cons, List.not_mem_nil, or_false] at hmem
      rcases hmem with rfl | rfl <;> rfl
    · rw [List.mem_singleton.1 hmem]
      exact hblanks d hd

/-- **A lexeme and its twin move the state alike.** -/
theorem next_withReturns (hr : r.NoLineEnds) {cs : Text} (hcs : '\r' ∉ cs) {pos : Nat}
    {lineStart : Bool} {l : Lexeme} (hl : l ∈ r.grammar.scan pos lineStart cs) (s : State) :
    r.next (withReturns l.text) s = r.next l.text s := by
  fun_induction Grammar.scan r.grammar pos lineStart cs with
  | case1 => cases hl
  | case2 pos lineStart c cs n lexeme ih =>
    rcases List.mem_cons.1 hl with rfl | hl
    · have htransition : r.transition (withReturns lexeme.text) s =
          r.transition lexeme.text s := by
        by_cases hmem : '\n' ∈ lexeme.text
        · have hcases : lexeme.text = ['\n'] ∨ Grammar.Separates lexeme.text :=
            Grammar.eq_newline_or_separates hr.onOneLine hcs hmem
          rcases hcases with heq | hseparates
          · rw [heq, transition_newline hr rfl, transition_newline hr rfl]
          · rw [transition_separates hr hseparates,
              transition_separates hr (separates_withReturns hseparates)]
        · rw [withReturns_of_not_mem hmem]
      rw [next, next, htransition]
    · exact ih (fun h => hcs (List.mem_of_mem_drop h)) hl

/-! ### Styles -/

/-- The spans of a trace are as long as its lexemes. -/
theorem map_length_lexemeSpans (s : State) (ls : List Lexeme) :
    (Trace.lexemeSpans (r.entries s ls)).map Span.length = (ls.map Lexeme.text).map byteSize := by
  induction ls generalizing s with
  | nil => rfl
  | cons l ls ih =>
    rw [entries, Trace.lexemeSpans, List.map_cons, List.map_cons, List.map_cons, ih]
    rfl

/-- **Lexemes that move the state alike have the same styles.** -/
theorem styles_map {f : Text → Text} {ls ls' : List Lexeme}
    (htexts : ls'.map Lexeme.text = (ls.map Lexeme.text).map f)
    (hnext : ∀ l ∈ ls, ∀ s, r.next (f l.text) s = r.next l.text s) (s : State) :
    (Trace.lexemeSpans (r.entries s ls')).map Span.style =
        (Trace.lexemeSpans (r.entries s ls)).map Span.style ∧
      Trace.givesUp (r.entries s ls') = Trace.givesUp (r.entries s ls) := by
  induction ls generalizing s ls' with
  | nil =>
    rw [List.map_nil, List.map_nil, List.map_eq_nil_iff] at htexts
    subst htexts
    exact ⟨rfl, rfl⟩
  | cons l ls ih =>
    obtain ⟨l', ls', rfl, hl, hls⟩ := List.map_eq_cons_iff.1 htexts
    have hstep : r.next l'.text s = r.next l.text s := by
      rw [hl]
      exact hnext l List.mem_cons_self s
    obtain ⟨hspans, hgives⟩ :=
      ih hls (fun l hl => hnext l (List.mem_cons_of_mem _ hl)) (r.next l.text s)
    simp only [entries, Trace.lexemeSpans, Trace.givesUp, Trace.shown, List.map_cons, hstep, hspans,
      hgives, and_self]

/-- **Carriage returns do not matter.** A registry has no name with a carriage return or a newline,
and a text has no carriage return. Scanning and styling succeed for the text and for its twin with a
carriage return before each newline. The lexemes of the twin are those of the text, each with the
carriage returns added. Each lexeme has a span of its own in both, and the styles are the same. -/
theorem styleText_withReturns (hr : r.NoLineEnds) {text : Text} (htext : '\r' ∉ text) :
    ∃ lexemes spans spans',
      r.grammar.tokenize text = .ok lexemes ∧ r.styleText text = .ok spans ∧
      r.grammar.tokenize (withReturns text) = .ok (lexemes.map withReturns) ∧
      r.styleText (withReturns text) = .ok spans' ∧
      spans.map Span.length = lexemes.map byteSize ∧
      spans'.map Span.length = (lexemes.map withReturns).map byteSize ∧
      spans'.map Span.style = spans.map Span.style := by
  obtain ⟨pass, -, -, hstyled, hspans, -⟩ := r.styleText_eq text
  obtain ⟨pass', -, -, hstyled', hspans', -⟩ := r.styleText_eq (withReturns text)
  have htexts := Grammar.map_text_scan_withReturns hr htext 0 0 true
  refine ⟨_, pass.spans, pass'.spans, Grammar.tokenize_eq _ _, hstyled, ?_, hstyled', ?_, ?_, ?_⟩
  · rw [Grammar.tokenize_eq, Grammar.scanText, Grammar.scanText, htexts]
  · rw [hspans, course, map_length_lexemeSpans]
  · rw [hspans', course, map_length_lexemeSpans, Grammar.scanText, Grammar.scanText, htexts]
  · rw [hspans', hspans, course, course]
    exact (styles_map htexts (fun l hl s => next_withReturns hr htext hl s) .initial).1

/-- An unclosed string in a script, and a separator of versions behind it. -/
theorem styleText_withReturns_unclosed :
    NoLineEnds { builtins := ["len".toList], headerKeys := ["version".toList] } ∧
    '\r' ∉ "....\nlen 'a\n....\nOR \n".toList ∧
    ∃ spans spans',
      styleText { builtins := ["len".toList], headerKeys := ["version".toList] }
        "....\nlen 'a\n....\nOR \n".toList = .ok spans ∧
      styleText { builtins := ["len".toList], headerKeys := ["version".toList] }
        "....\r\nlen 'a\r\n....\r\nOR \r\n".toList = .ok spans' ∧
      spans'.map Span.style = spans.map Span.style ∧
      spans.map Span.style =
        [.blockDelimiter, .scriptBody, .builtin, .scriptBody, .unclosedString, .unclosedString,
          .unclosedString, .blockDelimiter, .plain, .alternativeVersion] := by
  have hnames : NoLineEnds { builtins := ["len".toList], headerKeys := ["version".toList] } := by
    decide
  have htext : '\r' ∉ "....\nlen 'a\n....\nOR \n".toList := by decide
  obtain ⟨lexemes, spans, spans', -, hspans, -, hspans', -, -, hstyles⟩ :=
    styleText_withReturns hnames htext
  have hrun : styleText { builtins := ["len".toList], headerKeys := ["version".toList] }
      "....\nlen 'a\n....\nOR \n".toList = .ok
        [⟨4, .blockDelimiter⟩, ⟨1, .scriptBody⟩, ⟨3, .builtin⟩, ⟨1, .scriptBody⟩,
          ⟨1, .unclosedString⟩, ⟨1, .unclosedString⟩, ⟨1, .unclosedString⟩, ⟨4, .blockDelimiter⟩,
          ⟨1, .plain⟩, ⟨4, .alternativeVersion⟩] := by
    decide +kernel
  refine ⟨hnames, htext, spans, spans', hspans, hspans', hstyles, ?_⟩
  rw [Except.ok.inj (hspans.symm.trans hrun)]
  rfl

end Registry

end TemplateStyler
