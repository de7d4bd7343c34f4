import TemplateStyler.Proofs.Lexeme.Quoted
import TemplateStyler.Proofs.Styler.Compose
import TemplateStyler.Proofs.Styler.Returning
import TemplateStyler.Registry.Stock

/-!
# A string on a line of a script

A script assigns a string to a variable. The opening quote starts the string, and what stands
between the quotes has no say in it, but for a comment: that one is a single lexeme with the closing
quote, so that the string is unclosed.

* `quotedLine`: the text, a script that is still open.
* `Registry.colours_string`: the lexemes from a quote to the one that ends its string have one
  style.
* `colours_quotedLine`: the style of each byte of the text.
* `paints_quotedLine_iff`: **the literal has the style of its quote, and the script goes on behind
  it, if and only if no comment stands between the quotes.**
-/

namespace TemplateStyler

open Text Lexeme

/-! ### Strings that a lexeme ends -/

/-- **A string has one style from its quote to the lexeme that ends it**: the style of the quote, or
that of unclosed strings if a newline ends it. -/
theorem Registry.colours_string {r : Registry} {s : State} (hs : s.Consistent)
    (hmode : s.mode ≠ .string) {l last : Lexeme} {inside : List Lexeme} {opened style : Style}
    (hopen : r.next l.text s = ⟨opened, .string, s.mode⟩)
    (hinside : ∀ l' ∈ inside, ¬ EndsString l.text l'.text) (hlast : EndsString l.text last.text)
    (hstyle : style = if Shape.isNewline last.text then .unclosedString else opened)
    (rest : List Lexeme) :
    r.after s (l :: inside ++ last :: rest) = r.after ⟨style, s.mode, .string⟩ rest ∧
    Trace.colours (r.entries s (l :: inside ++ last :: rest)) =
      List.replicate (total (l :: inside ++ [last])) style ++
        Trace.colours (r.entries ⟨style, s.mode, .string⟩ rest) := by
  have hquote := (r.quote_of_next hs hmode (by rw [hopen])).1
  have hs' := r.consistent_next hs l.text
  rw [hopen] at hquote hs'
  obtain ⟨hafter, hentries⟩ := after_of_not_endsString hs' rfl hquote hinside
  have hend : r.next last.text ⟨opened, .string, s.mode⟩ = ⟨style, s.mode, .string⟩ := by
    rw [next_of_endsString hs' rfl hquote hlast, hstyle]
  have hclosed : r.entries ⟨opened, .string, s.mode⟩ (last :: rest) =
      ⟨last, ⟨opened, .string, s.mode⟩, ⟨style, s.mode, .string⟩⟩ ::
        r.entries ⟨style, s.mode, .string⟩ rest := by
    rw [entries, hend]
  have hstring : ∀ e ∈ r.entries s (l :: inside),
      e.after.mode = .string ∧ e.after.style = opened := by
    intro e he
    rw [entries, hopen] at he
    rcases List.mem_cons.1 he with rfl | he
    · exact ⟨rfl, rfl⟩
    · rw [hentries e he]
      exact ⟨rfl, rfl⟩
  -- a string that a newline ends is shown as unclosed from its quote on
  have hshown : (if (r.entries ⟨opened, .string, s.mode⟩ (last :: rest)).givesUp
      then .unclosedString else opened) = style := by
    rw [hclosed, Trace.givesUp, if_neg hmode, hstyle]
    by_cases hnewline : Shape.isNewline last.text = true
    · simp [hnewline]
    · simp only [hnewline, Bool.false_eq_true, if_false]
      split <;> simp_all
  have hcolours := Trace.colours_append_of_string hstring
    (r.entries ⟨opened, .string, s.mode⟩ (last :: rest))
  rw [hshown, map_lexeme_entries, hclosed, Trace.colours, Trace.shown,
    if_neg (fun h => hmode h.1)] at hcolours
  constructor
  · rw [List.cons_append, after_cons, hopen, after_append, hafter, after_cons, hend]
  · rw [entries_append, after_cons, hopen, hafter, hclosed, hcolours, ← List.append_assoc,
      List.replicate_append_replicate, total_append, total_cons last [], total_nil, Nat.add_zero]

/-! ### The lexemes of the line -/

/-- A script that assigns a string to a variable. -/
def quotedLine (q : Char) (body : Text) : Text :=
  "....\nx = ".toList ++ (q :: body ++ [q, '\n'])

/-- The lexemes before the string. -/
def quotedOpening : List Lexeme :=
  [⟨0, "....".toList⟩, ⟨4, "\n".toList⟩, ⟨5, "x".toList⟩, ⟨6, " ".toList⟩, ⟨7, "=".toList⟩,
    ⟨8, " ".toList⟩]

variable {q : Char} {body : Text}

theorem stock_onOneLine : Registry.stock.OnOneLine := ⟨by decide +kernel, by decide +kernel⟩

theorem isWord_of_mem_stock :
    ∀ name ∈ Registry.stock.grammar.argumentTags, ∀ c ∈ name, isWord c = true := by
  intro name hname
  have hall : ∀ name ∈ Registry.stock.argumentTags, name.all isWord = true := by decide +kernel
  exact List.all_eq_true.1 (hall name (mem_longestFirst.1 hname))

/-- Where no key of the header starts with a character, none is read there. -/
theorem extent?_headerKey_of_head {c : Char} (hblank : isBlank c = false)
    (hkeys : ∀ name ∈ Registry.stock.headerKeys, name.head?.any (· != c) = true) (cs : Text) :
    Rule.extent? Registry.stock.grammar true (c :: cs) .headerKey = none := by
  have hnames : ∀ name ∈ Registry.stock.grammar.headerKeys, name.head?.any (· != c) = true :=
    fun name hname => hkeys name (mem_longestFirst.1 hname)
  exact startsWith_afterBlanks (startsWith_named hnames _) c cs (by simp [hblank])

/-- No key of the header starts with the name of the variable. -/
theorem extent_variable (cs : Text) :
    Registry.stock.grammar.extent true ('x' :: ' ' :: cs) = 1 := by
  refine Grammar.extent_of_rules [.headerKey, .word, .other] (by decide) ?_ (Nat.le_refl 1)
  rw [List.findSome?_cons, extent?_headerKey_of_head (by decide) (by decide +kernel)]
  rfl

/-- A blank before a sign or a quote is a lexeme of its own. -/
theorem extent_oneBlank (g : Grammar) {c : Char} (hblank : isBlank c = false) (hsign : c ≠ '#')
    (cs : Text) : g.extent false (' ' :: c :: cs) = 1 := by
  have hrun : atLeast 1 isBlank (' ' :: c :: cs) = some 1 := by
    simp [atLeast, run, hblank, show isBlank ' ' = true from rfl]
  have hcomment : both (atLeast 1 isBlank) hashComment (' ' :: c :: cs) = none := by
    rw [both, hrun, Option.bind_some, List.drop_succ_cons, List.drop_zero, hashComment, both,
      literal_cons_of_ne hsign, Option.bind_none, Option.map_none]
  refine Grammar.extent_of_rules [.trailingComment, .blanks, .other] (by decide) ?_ (Nat.le_refl 1)
  simp only [List.findSome?_cons, Rule.extent?, hcomment, hrun]

theorem extent_equals (g : Grammar) (cs : Text) : g.extent false ('=' :: cs) = 1 :=
  Grammar.extent_of_rules [.other] (by decide) rfl (Nat.le_refl 1)

theorem scanText_quotedLine (hq : IsQuote q) (h : Unquoted body) :
    Registry.stock.grammar.scanText (quotedLine q body) =
      quotedOpening ++ ⟨9, [q]⟩ :: Registry.stock.grammar.scan 10 false (body ++ [q, '\n']) := by
  have hfirst : Registry.stock.grammar.scanText "....\n".toList =
      [⟨0, "....".toList⟩, ⟨4, "\n".toList⟩] := by
    decide +kernel
  have hsize : byteSize [q] = 1 := by rcases hq with rfl | rfl <;> decide
  have hbehind : ¬ [q, q] <+: body ++ [q, '\n'] := by
    cases body with
    | nil => simpa using hq.ne_newline
    | cons c body =>
      rw [List.cons_append, List.cons_prefix_cons]
      rintro ⟨rfl, -⟩
      exact hq.not_mem h (by simp)
  have hline : quotedLine q body =
      "....\n".toList ++ 'x' :: ' ' :: '=' :: ' ' :: q :: (body ++ [q, '\n']) := rfl
  rw [hline, Registry.scanText_append stock_onOneLine (by decide), hfirst,
    Grammar.scan_character (by decide) (extent_variable _),
    Grammar.scan_character (by decide) (extent_oneBlank _ (by decide) (by decide) _),
    Grammar.scan_character (by decide) (extent_equals _ _),
    Grammar.scan_character (by decide) (extent_oneBlank _ hq.isBlank hq.ne_sign _),
    Grammar.scan_character hq.ne_newline (extent_quote hq hbehind), hsize]
  rfl

/-! ### The style of each byte -/

/-- The styles of the two quotes. -/
theorem eq_of_ofQuote? {style : Style} (h : Style.ofQuote? [q] = some style) :
    q = '\'' ∧ style = .singleQuoteString ∨ q = '"' ∧ style = .doubleQuoteString := by
  unfold Style.ofQuote? at h
  split_ifs at h with h1 h2 h3 h4
  · exact Or.inl ⟨by simpa using h1, by simpa using h.symm⟩
  · exact Or.inr ⟨by simpa using h2, by simpa using h.symm⟩
  · simp at h3
  · simp at h4

/-- The state before the string. -/
def quotedState : State := ⟨.scriptBody, .script, .markup⟩

theorem after_quotedOpening :
    Registry.stock.after .initial quotedOpening = quotedState ∧
    Trace.colours (Registry.stock.entries .initial quotedOpening) =
      List.replicate 4 .blockDelimiter ++ List.replicate 5 .scriptBody := by
  decide +kernel

theorem next_openingQuote {style : Style} (hstyle : Style.ofQuote? [q] = some style) :
    Registry.stock.next [q] quotedState = ⟨style, .string, .script⟩ := by
  rcases eq_of_ofQuote? hstyle with ⟨rfl, rfl⟩ | ⟨rfl, rfl⟩ <;> decide +kernel

theorem next_newline {style : Style} (hstyle : Style.ofQuote? [q] = some style) :
    Registry.stock.next ['\n'] ⟨style, .script, .string⟩ = ⟨.scriptBody, .script, .string⟩ := by
  have hall : ∀ style ∈ [Style.singleQuoteString, .doubleQuoteString],
      Registry.stock.next ['\n'] ⟨style, .script, .string⟩ = ⟨.scriptBody, .script, .string⟩ := by
    decide +kernel
  refine hall style ?_
  rcases eq_of_ofQuote? hstyle with ⟨-, rfl⟩ | ⟨-, rfl⟩ <;> decide

/-- The styles of a literal and of the newline behind it. -/
theorem colours_literal {style : Style} (hstyle : Style.ofQuote? [q] = some style)
    (h : Unquoted body) {ls : List Lexeme}
    (hls : ls = ⟨9, [q]⟩ :: Registry.stock.grammar.scan 10 false (body ++ [q, '\n'])) :
    (Registry.stock.after quotedState ls).mode = .script ∧
    Trace.colours (Registry.stock.entries quotedState ls) =
      List.replicate (byteSize (q :: body ++ [q]))
          (if holdsComment body then .unclosedString else style) ++
        [if holdsComment body then .unclosedString else .scriptBody] := by
  have hq : IsQuote q := (eq_of_ofQuote? hstyle).imp And.left And.left
  obtain ⟨inside, closing, hscan, hclosing, hinside⟩ :=
    exists_scan_unquoted isWord_of_mem_stock hq h 10
  have hnot : ∀ l ∈ inside, ¬ EndsString [q] l.text := by
    rintro l hl (hquote | ⟨-, hnewline | hnewline⟩)
    · exact (hinside l hl).1 hquote
    · exact (hinside l hl).2 (by rw [hnewline]; decide)
    · exact (hinside l hl).2 (by rw [hnewline]; decide)
  have hopen := next_openingQuote hstyle
  have hsize : total (⟨9, [q]⟩ :: inside ++ closing) = byteSize (q :: body ++ [q]) + 1 := by
    rw [List.cons_append, ← hscan, total_cons, Grammar.total_scan]
    simp [Lexeme.size, byteSize_cons, byteSize_append, show '\n'.utf8Size = 1 from rfl]
    omega
  have hconsistent : quotedState.Consistent := State.consistent_of_ne (by decide) (by decide)
  rw [hls, hscan, ← List.cons_append]
  by_cases hcomment : holdsComment body = true
  · -- the newline ends the string
    simp only [hcomment, if_true, List.nil_append] at hclosing ⊢
    obtain ⟨last, rfl, hlast⟩ := List.map_eq_singleton_iff.1 hclosing
    have hends : EndsString [q] last.text := by
      rw [hlast]
      rcases hq with rfl | rfl <;> decide
    have hstyle' : .unclosedString =
        if Shape.isNewline last.text then .unclosedString else style := by
      rw [hlast]
      rfl
    obtain ⟨hstate, hcolours⟩ := Registry.colours_string (l := ⟨9, [q]⟩) hconsistent
      (by decide) hopen hnot hends hstyle' []
    rw [hstate, hcolours, hsize, List.replicate_succ']
    exact ⟨rfl, List.append_nil _⟩
  · -- the quote ends it
    simp only [hcomment, Bool.false_eq_true, if_false] at hclosing ⊢
    obtain ⟨last, rest, rfl, hlast, hrest⟩ := List.map_eq_cons_iff.1 hclosing
    obtain ⟨newline, rfl, hnewline⟩ := List.map_eq_singleton_iff.1 hrest
    have hstyle' : style = if Shape.isNewline last.text then .unclosedString else style := by
      rw [hlast, if_neg]
      rcases hq with rfl | rfl <;> decide
    obtain ⟨hstate, hcolours⟩ := Registry.colours_string (l := ⟨9, [q]⟩) hconsistent
      (by decide) hopen hnot (Or.inl hlast) hstyle' [newline]
    have hafter : Registry.stock.next ['\n'] ⟨style, quotedState.mode, .string⟩ = _ :=
      next_newline hstyle
    have hcut : ⟨9, [q]⟩ :: inside ++ [last, newline] =
        ⟨9, [q]⟩ :: inside ++ [last] ++ [newline] := by
      simp
    have hone : newline.size = 1 := by rw [Lexeme.size, hnewline]; rfl
    rw [hcut, total_append, total_cons newline [], total_nil, Nat.add_zero, hone,
      Nat.add_right_cancel_iff] at hsize
    rw [hstate, hcolours, hsize]
    simp [Registry.entries, Trace.colours, Trace.shown, hnewline, hafter, hone]

/-- **What a script with a literal is shown as.** -/
theorem colours_quotedLine {style : Style} (hstyle : Style.ofQuote? [q] = some style)
    (h : Unquoted body) :
    (Registry.stock.stateAfter (quotedLine q body)).mode = .script ∧
    Registry.stock.colours (quotedLine q body) =
      List.replicate 4 .blockDelimiter ++ List.replicate 5 .scriptBody ++
        (List.replicate (byteSize (q :: body ++ [q]))
            (if holdsComment body then .unclosedString else style) ++
          [if holdsComment body then .unclosedString else .scriptBody]) := by
  obtain ⟨hbefore, hopening⟩ := after_quotedOpening
  have hq : IsQuote q := (eq_of_ofQuote? hstyle).imp And.left And.left
  obtain ⟨hmode, hcolours⟩ := colours_literal hstyle h rfl
  rw [Registry.colours, Registry.stateAfter, Registry.course, scanText_quotedLine hq h,
    Registry.colours_entries_append State.consistent_initial
      (by rw [hbefore]; exact fun hinLine => absurd hinLine.1 (by decide)),
    Registry.after_append, hbefore, hopening, hcolours]
  exact ⟨hmode, rfl⟩

/-- Byte by byte. -/
theorem getElem?_colours_quotedLine {style : Style} (hstyle : Style.ofQuote? [q] = some style)
    (h : Unquoted body) (pos : Nat) :
    (Registry.stock.colours (quotedLine q body))[pos]? =
      if pos < 4 then some .blockDelimiter
      else if pos < 9 then some .scriptBody
      else if pos < 9 + byteSize (q :: body ++ [q]) then
        some (if holdsComment body then .unclosedString else style)
      else if pos = 9 + byteSize (q :: body ++ [q]) then
        some (if holdsComment body then .unclosedString else .scriptBody)
      else none := by
  rw [(colours_quotedLine hstyle h).2]
  simp only [List.getElem?_append, List.getElem?_replicate, List.length_append,
    List.length_replicate, List.getElem?_singleton]
  split_ifs <;> first | rfl | omega

/-- A pass over a whole text gives each byte its style. -/
theorem Registry.exists_style (r : Registry) (text : Text) :
    ∃ pass st, (Styler.ofRegistry r).style text 0 (byteSize text) = .ok (pass, st) ∧
      Span.colours pass.spans = r.colours text ∧ pass.endState = r.stateAfter text := by
  obtain ⟨pass, st, hpass, -, hspans, hend⟩ := r.styleText_eq text
  exact ⟨pass, st, hpass, by rw [hspans, Trace.colours_lexemeSpans, Registry.colours], hend⟩

/-- The literal has the style of its quote, and nothing else has it; the newline behind it belongs
to the script, which goes on. -/
def PaintsLiteral (q : Char) (body : Text) (style : Style) (pass : Pass) : Prop :=
  (∀ pos, (Span.colours pass.spans)[pos]? = some style ↔
    9 ≤ pos ∧ pos < 9 + byteSize (q :: body ++ [q])) ∧
  (Span.colours pass.spans)[9 + byteSize (q :: body ++ [q])]? = some .scriptBody ∧
  pass.endState.mode = .script

/-- **Literals are recognised unless they hold a comment.** A script assigns a text without quotes,
backslashes and line ends between two quotes. A pass over the script never fails. It gives the
literal the style of its quote, and goes on as before behind it, if and only if no comment stands
between the quotes; a comment takes the closing quote. -/
theorem paints_quotedLine_iff {style : Style} (hstyle : Style.ofQuote? [q] = some style)
    (h : Unquoted body) :
    ∃ pass st, (Styler.ofRegistry .stock).style (quotedLine q body) 0
        (byteSize (quotedLine q body)) = .ok (pass, st) ∧
      (PaintsLiteral q body style pass ↔ holdsComment body = false) := by
  obtain ⟨pass, st, hpass, hcolours, hend⟩ := Registry.stock.exists_style (quotedLine q body)
  have hmode : pass.endState.mode = .script := by rw [hend, (colours_quotedLine hstyle h).1]
  have hnot : style ≠ .blockDelimiter ∧ style ≠ .scriptBody := by
    rcases eq_of_ofQuote? hstyle with ⟨-, rfl⟩ | ⟨-, rfl⟩ <;> decide
  refine ⟨pass, st, hpass, ?_⟩
  have hbyte := getElem?_colours_quotedLine hstyle h
  rw [PaintsLiteral, hcolours, hbyte (9 + _), if_neg (by omega), if_neg (by omega),
    if_neg (by omega), if_pos rfl]
  generalize byteSize (q :: body ++ [q]) = size at hbyte ⊢
  cases hcomment : holdsComment body with
  | true =>
    -- the newline belongs to the comment
    exact iff_of_false (fun hpaints => by cases hpaints.2.1) (by decide)
  | false =>
    simp only [hcomment, Bool.false_eq_true, if_false] at hbyte
    refine iff_of_true ⟨fun pos => ?_, rfl, hmode⟩ rfl
    rw [hbyte]
    split_ifs with h4 h9 hin hend
    · exact iff_of_false (fun heq => hnot.1 (Option.some.inj heq).symm) (by omega)
    · exact iff_of_false (fun heq => hnot.2 (Option.some.inj heq).symm) (by omega)
    · exact iff_of_true rfl ⟨by omega, hin⟩
    · exact iff_of_false (fun heq => hnot.2 (Option.some.inj heq).symm) (by omega)
    · exact iff_of_false (by simp) (by omega)

/-- A number sign between blanks that belongs to the annotation of a name. -/
theorem paints_quotedLine_iff_brackets :
    Unquoted "#a[b # c] 5".toList ∧ Style.ofQuote? ['"'] = some .doubleQuoteString ∧
    ∃ pass st, (Styler.ofRegistry .stock).style (quotedLine '"' "#a[b # c] 5".toList) 0 23 =
        .ok (pass, st) ∧
      PaintsLiteral '"' "#a[b # c] 5".toList .doubleQuoteString pass := by
  have hbody : Unquoted "#a[b # c] 5".toList := by decide
  obtain ⟨pass, st, hpass, hpaints⟩ := paints_quotedLine_iff (q := '"') rfl hbody
  exact ⟨hbody, rfl, pass, st, hpass, hpaints.2 (by decide +kernel)⟩

/-- A comment that takes the closing quote. -/
theorem not_paints_quotedLine :
    Unquoted "a # b".toList ∧ Style.ofQuote? ['\''] = some .singleQuoteString ∧
    ∃ pass st, (Styler.ofRegistry .stock).style "....\nx = 'a # b'\n".toList 0 17 =
        .ok (pass, st) ∧
      (Span.colours pass.spans)[9]? = some .unclosedString ∧
      ¬ PaintsLiteral '\'' "a # b".toList .singleQuoteString pass := by
  have hbody : Unquoted "a # b".toList := by decide
  have hcomment : holdsComment "a # b".toList = true := by decide +kernel
  have hbyte := getElem?_colours_quotedLine (q := '\'') rfl hbody 9
  rw [hcomment] at hbyte
  obtain ⟨pass, st, hpass, hcolours, -⟩ :=
    Registry.stock.exists_style (quotedLine '\'' "a # b".toList)
  have hopening : (Span.colours pass.spans)[9]? = some .unclosedString := by
    rw [hcolours, hbyte]
    rfl
  refine ⟨hbody, rfl, pass, st, hpass, hopening, fun hpaints => ?_⟩
  have hstyle := (hpaints.1 9).2 ⟨Nat.le_refl _, by decide⟩
  rw [hopening] at hstyle
  cases hstyle

end TemplateStyler
