import TemplateStyler.Proofs.Styler.Literal

/-!
# Strings return to what opened them

A state remembers one mode only. That is enough for strings: while one is open nothing moves the
remembered mode, so that it ends in the mode in which it was opened, whatever stands inside.

* `EndsString`: the lexemes that end the string of a quote. `next_of_not_endsString` and
  `next_of_endsString` say what the others and they do to an open string.
* `Trace.StringFrom`: an entry opens a string of the trace behind it, which goes on in the style of
  its quote up to the first of those lexemes and ends there, in the mode before the quote.
* `stringFrom_of_opening`: **every entry that changes the mode to a string does so**.
-/

namespace TemplateStyler

open Lexeme

/-- Whether a lexeme ends the string of a quote: it is the quote itself, or a newline and the quote
is a single character. -/
def EndsString (quote lexeme : Text) : Prop :=
  lexeme = quote ∨
    (quote = "'".toList ∨ quote = "\"".toList) ∧ (lexeme = "\n".toList ∨ lexeme = "\r\n".toList)

instance (quote lexeme : Text) : Decidable (EndsString quote lexeme) := by
  unfold EndsString; infer_instance

/-- An entry opens a string in the trace behind it. -/
structure Trace.StringFrom (opening : Entry) (rest : Trace) : Prop where
  mode : opening.before.mode = .script ∨ opening.before.mode = .expression
  quote : Style.ofQuote? opening.lexeme.text = some opening.after.style
  /-- As long as no lexeme ends it, the string goes on in the style of its quote. -/
  body : ∀ inside after, rest = inside ++ after →
    (∀ e ∈ inside, ¬ EndsString opening.lexeme.text e.lexeme.text) →
    ∀ e ∈ inside, e.after.mode = .string ∧ e.after.style = opening.after.style
  /-- The first lexeme that ends it leads back to the mode before the quote. -/
  closing : ∀ inside last after, rest = inside ++ last :: after →
    (∀ e ∈ inside, ¬ EndsString opening.lexeme.text e.lexeme.text) →
    EndsString opening.lexeme.text last.lexeme.text →
    last.after.mode = opening.before.mode ∧ last.after.style =
      if Shape.isNewline last.lexeme.text then .unclosedString else opening.after.style

namespace Registry

variable {r : Registry}

/-! ### One lexeme in a string -/

theorem isSingleLine_iff {quote : List Char} {style : Style}
    (h : Style.ofQuote? quote = some style) :
    style.isSingleLine = true ↔ quote = "'".toList ∨ quote = "\"".toList := by
  refine ⟨quote_of_isSingleLine h, ?_⟩
  rintro (rfl | rfl)
  · cases h
    rfl
  · cases h
    rfl

theorem endsString_iff {quote : List Char} {style : Style}
    (h : Style.ofQuote? quote = some style) (lexeme : List Char) :
    EndsString quote lexeme ↔
      (Shape.isNewline lexeme && style.isSingleLine) = true ∨
        style.closingQuote? = some lexeme := by
  have hclose : style.closingQuote? = some lexeme ↔ lexeme = quote := by
    rw [Style.closingQuote?_ofQuote? h, Option.some.injEq, eq_comm]
  rw [Bool.and_eq_true, isSingleLine_iff h, isNewline_iff, hclose, EndsString]
  constructor
  · rintro (hquote | ⟨hsingle, hnewline⟩)
    · exact Or.inr hquote
    · exact Or.inl ⟨hnewline, hsingle⟩
  · rintro (⟨hnewline, hsingle⟩ | hquote)
    · exact Or.inr ⟨hsingle, hnewline⟩
    · exact Or.inl hquote

theorem next_of_not_endsString {s : State} (hs : s.Consistent) (hmode : s.mode = .string)
    {quote lexeme : List Char} (hquote : Style.ofQuote? quote = some s.style)
    (h : ¬ EndsString quote lexeme) : r.next lexeme s = s := by
  rw [endsString_iff hquote, not_or] at h
  rw [r.next_string hs hmode, if_neg h.1, if_neg h.2]

theorem next_of_endsString {s : State} (hs : s.Consistent) (hmode : s.mode = .string)
    {quote lexeme : List Char} (hquote : Style.ofQuote? quote = some s.style)
    (h : EndsString quote lexeme) :
    r.next lexeme s =
      ⟨if Shape.isNewline lexeme then .unclosedString else s.style, s.previous, .string⟩ := by
  rw [r.next_string hs hmode]
  rcases (endsString_iff hquote lexeme).1 h with hnewline | hclose
  · rw [if_pos hnewline, if_pos (Bool.and_eq_true _ _ ▸ hnewline).1]
  · have hquote' : lexeme = quote := by
      rw [Style.closingQuote?_ofQuote? hquote] at hclose
      exact (Option.some.inj hclose).symm
    -- a quote is no newline
    have hnot : Shape.isNewline lexeme ≠ true := by
      intro hnewline
      have hnone := ofQuote?_of_isNewline hnewline
      rw [hquote', hquote] at hnone
      cases hnone
    rw [if_neg (fun hboth => hnot (Bool.and_eq_true _ _ ▸ hboth).1), if_pos hclose, if_neg hnot]

/-- The lexeme that changes the mode to a string makes the mode before it the remembered one. -/
theorem previous_next {s : State} {lexeme : List Char} (h : (r.next lexeme s).mode ≠ s.mode) :
    (r.next lexeme s).previous = s.mode := if_neg h

/-! ### The lexemes up to its end -/

/-- **While no lexeme ends a string, nothing in its state moves.** -/
theorem after_of_not_endsString {s : State} (hs : s.Consistent) (hmode : s.mode = .string)
    {quote : List Char} (hquote : Style.ofQuote? quote = some s.style) {ls : List Lexeme}
    (h : ∀ l ∈ ls, ¬ EndsString quote l.text) :
    r.after s ls = s ∧ ∀ e ∈ r.entries s ls, e.after = s := by
  induction ls with
  | nil => exact ⟨rfl, by simp [entries]⟩
  | cons l ls ih =>
    have hself : r.next l.text s = s :=
      next_of_not_endsString hs hmode hquote (h l List.mem_cons_self)
    obtain ⟨hafter, hentries⟩ := ih fun l' hl' => h l' (List.mem_cons_of_mem _ hl')
    rw [after_cons, entries, hself]
    refine ⟨hafter, fun e he => ?_⟩
    rcases List.mem_cons.1 he with rfl | he
    · rfl
    · exact hentries e he

/-- The trace behind a lexeme that opens a string. -/
theorem stringFrom_entries {s : State} (hs : s.Consistent) (hbefore : s.mode ≠ .string) {l : Lexeme}
    (hstring : (r.next l.text s).mode = .string) (ls : List Lexeme) :
    Trace.StringFrom ⟨l, s, r.next l.text s⟩ (r.entries (r.next l.text s) ls) := by
  obtain ⟨hquote, hmode⟩ := r.quote_of_next hs hbefore hstring
  have hs' := r.consistent_next hs l.text
  have hprevious : (r.next l.text s).previous = s.mode :=
    previous_next (by rw [hstring]; exact Ne.symm hbefore)
  -- what stands inside is the trace of lexemes none of which ends the string
  have hinside : ∀ {inside : Trace} {ls1 : List Lexeme},
      inside = r.entries (r.next l.text s) ls1 →
      (∀ e ∈ inside, ¬ EndsString l.text e.lexeme.text) →
      ∀ l' ∈ ls1, ¬ EndsString l.text l'.text := by
    rintro inside ls1 rfl hnot l' hl'
    rw [← r.map_lexeme_entries (r.next l.text s) ls1] at hl'
    obtain ⟨e, he, rfl⟩ := List.mem_map.1 hl'
    exact hnot e he
  refine ⟨hmode, hquote, ?_, ?_⟩
  · intro inside after hrest hnot e he
    obtain ⟨ls1, ls2, -, hls1, -⟩ := exists_of_entries_append hrest
    obtain ⟨-, hentries⟩ := after_of_not_endsString hs' hstring hquote (hinside hls1 hnot)
    rw [hentries e (hls1 ▸ he)]
    exact ⟨hstring, rfl⟩
  · intro inside last after hrest hnot hends
    obtain ⟨ls1, ls2, -, hls1, hls2⟩ := exists_of_entries_append hrest
    obtain ⟨hafter, -⟩ := after_of_not_endsString hs' hstring hquote (hinside hls1 hnot)
    rw [hafter] at hls2
    obtain ⟨l', ls3, -, rfl, -⟩ := exists_of_entries_cons hls2.symm
    rw [next_of_endsString hs' hstring hquote hends]
    exact ⟨hprevious, rfl⟩

/-- **A string returns to the mode that opened it.** A run over lexemes of any kind never fails.
Each of its entries that changes the mode to a string stands in a script or an inline expression and
is a quote. From there on every lexeme has the style of the quote, up to the first one that is the
quote again, or a newline if the quote is a single character. That one leads back to the mode before
the string. It has the style of the quote too, but for a newline, with which the string is
unclosed. -/
theorem stringFrom_of_opening (r : Registry) (ls : List Lexeme) :
    ∃ t, r.trace .initial ls = .ok t ∧ t.map Entry.lexeme = ls ∧
      ∀ before opening rest, t = before ++ opening :: rest → opening.before.mode ≠ .string →
        opening.after.mode = .string → Trace.StringFrom opening rest := by
  refine ⟨_, r.trace_eq_entries State.consistent_initial ls, r.map_lexeme_entries _ _, ?_⟩
  intro before opening rest ht hbefore hstring
  obtain ⟨ls1, ls2, -, -, hls2⟩ := exists_of_entries_append ht
  obtain ⟨l, ls3, -, rfl, rfl⟩ := exists_of_entries_cons hls2.symm
  exact stringFrom_entries (r.consistent_after State.consistent_initial ls1) hbefore hstring ls3

/-- The dots that open a script elsewhere are part of the string of an inline expression, and the
newline that leaves the string unclosed leads back to the expression. -/
theorem stringFrom_of_opening_unclosed :
    ∃ before opening dots newline : Entry,
      Registry.trace {} .initial
          [⟨0, "#\x7b".toList⟩, ⟨2, "\"".toList⟩, ⟨3, "....".toList⟩, ⟨7, "\n".toList⟩] =
        .ok [before, opening, dots, newline] ∧
      opening.before.mode = .expression ∧ opening.after.mode = .string ∧
      Trace.StringFrom opening [dots, newline] ∧
      dots.after.mode = .string ∧ dots.after.style = .doubleQuoteString ∧
      newline.after.mode = .expression ∧ newline.after.style = .unclosedString := by
  obtain ⟨t, ht, -, hall⟩ := stringFrom_of_opening {}
    [⟨0, "#\x7b".toList⟩, ⟨2, "\"".toList⟩, ⟨3, "....".toList⟩, ⟨7, "\n".toList⟩]
  have hrun : Registry.trace {} .initial
      [⟨0, "#\x7b".toList⟩, ⟨2, "\"".toList⟩, ⟨3, "....".toList⟩, ⟨7, "\n".toList⟩] =
      .ok [⟨⟨0, "#\x7b".toList⟩, .initial, ⟨.inlineExpression, .expression, .markup⟩⟩,
        ⟨⟨2, "\"".toList⟩, ⟨.inlineExpression, .expression, .markup⟩,
          ⟨.doubleQuoteString, .string, .expression⟩⟩,
        ⟨⟨3, "....".toList⟩, ⟨.doubleQuoteString, .string, .expression⟩,
          ⟨.doubleQuoteString, .string, .expression⟩⟩,
        ⟨⟨7, "\n".toList⟩, ⟨.doubleQuoteString, .string, .expression⟩,
          ⟨.unclosedString, .expression, .string⟩⟩] := by
    rfl
  rw [hrun] at ht
  cases ht
  have hfrom := hall [_] _ _ rfl (by decide) rfl
  have hdots := hfrom.body [_] [_] rfl (by decide) _ (List.mem_singleton_self _)
  have hnewline := hfrom.closing [_] _ [] rfl (by decide) (by decide)
  exact ⟨_, _, _, _, hrun, rfl, rfl, hfrom, hdots.1, hdots.2, hnewline.1, hnewline.2⟩

end Registry

end TemplateStyler
