import TemplateStyler.Proofs.Styler.Quoted

/-!
# Comments in the markup

A percent sign that starts a line of the markup starts a comment, which lasts until the line ends.
The scanner reads a comment as it reads everything else, with its quotes, tags and dots, but no
lexeme of it moves the state.

* `Grammar.exists_scan_line`: the newline of a line is its last lexeme, whatever stands before it.
* `Registry.entries_comment`: the lexemes of a comment leave the state as it is.
* `Registry.Paints`: how a text is shown, and the state at its end.
* `Registry.paints_comment`: **nothing but its own bytes depends on what a comment says.**
-/

namespace TemplateStyler

open Text Lexeme

namespace Grammar

variable {r : Registry}

/-- Within a line no lexeme goes past the end of the line. -/
theorem extent_le_length (hr : r.OnOneLine) {line : Text} (hne : line ≠ [])
    (hline : WithinLine line) (rest : Text) :
    r.grammar.extent false (line ++ '\n' :: rest) ≤ line.length := by
  by_contra hlt
  rcases lexeme_with_newline hr hline.newline_not_mem (Nat.lt_of_not_le hlt) with
    hnil | hreturn | ⟨h, -⟩
  · exact hne hnil
  · exact absurd (by simp [hreturn]) (hline.not_mem (c := '\r') rfl)
  · cases h

/-- **The newline of a line is its last lexeme**, and none before it is a newline. -/
theorem exists_scan_line (hr : r.OnOneLine) {line : Text}
    (hline : WithinLine line) (pos : Nat) :
    ∃ inside newline, r.grammar.scan pos false (line ++ ['\n']) = inside ++ [newline] ∧
      newline.text = ['\n'] ∧ ∀ l ∈ inside, Shape.isNewline l.text = false := by
  induction hn : line.length using Nat.strong_induction_on generalizing line pos with
  | _ n ih =>
    subst hn
    by_cases hne : line = []
    · subst hne
      exact ⟨[], ⟨pos, ['\n']⟩, scan_newline _ pos, rfl, by simp⟩
    · -- the next lexeme is a part of the line
      have hle := extent_le_length hr hne hline []
      have hpos := r.grammar.one_le_extent false (line ++ ['\n'])
      obtain ⟨w, rest, rfl, hw⟩ : ∃ w rest, line = w ++ rest ∧
          r.grammar.extent false (line ++ ['\n']) = w.length :=
        ⟨_, _, (List.take_append_drop _ line).symm, by rw [List.length_take, Nat.min_eq_left hle]⟩
      rw [hw] at hpos
      obtain ⟨hwline, hrest⟩ := withinLine_append.1 hline
      have hinside := hwline.newline_not_mem
      have hopen : (w.getLast? == some '\n') = false :=
        beq_eq_false_iff_ne.2 fun hlast => hinside (List.mem_of_getLast? hlast)
      rw [List.append_assoc] at hw ⊢
      have hscan := scan_of_extent (List.length_pos_iff.1 hpos) hw pos
      obtain ⟨inside, newline, hbehind, htext, hall⟩ :=
        ih rest.length (by rw [List.length_append]; omega) hrest (pos + byteSize w) rfl
      rw [hopen, hbehind] at hscan
      refine ⟨⟨pos, w⟩ :: inside, newline, hscan, htext, List.forall_mem_cons.2 ⟨?_, hall⟩⟩
      refine Bool.eq_false_iff.2 fun h => hinside ?_
      have heq : w = ['\n'] ∨ w = ['\r', '\n'] := Registry.isNewline_iff.1 h
      rcases heq with rfl | rfl <;> decide

end Grammar

namespace Registry

/-! ### Steps of a comment -/

variable {r : Registry} {p : Mode}

theorem next_percent {s : State} (hmode : s.mode = .markup) :
    r.next ['%'] s = ⟨.languageComment, .markup, s.previous⟩ := by
  have htransition : r.transition ['%'] s = ⟨.languageComment, .markup⟩ := by
    rw [transition, hmode]
    split <;> rfl
  rw [next, htransition, hmode]
  rfl

theorem next_comment {lexeme : Text} (h : Shape.isNewline lexeme = false) :
    r.next lexeme ⟨.languageComment, .markup, p⟩ = ⟨.languageComment, .markup, p⟩ := by
  simp [next, transition, h]

theorem next_newline_comment :
    r.next ['\n'] ⟨.languageComment, .markup, p⟩ = ⟨.plain, .markup, p⟩ := rfl

/-- **The lexemes of a comment leave the state as it is**, and all of them have its style. -/
theorem entries_comment {ls : List Lexeme} (h : ∀ l ∈ ls, Shape.isNewline l.text = false) :
    r.after ⟨.languageComment, .markup, p⟩ ls = ⟨.languageComment, .markup, p⟩ ∧
      Trace.colours (r.entries ⟨.languageComment, .markup, p⟩ ls) =
        List.replicate (total ls) .languageComment := by
  induction ls with
  | nil => exact ⟨rfl, rfl⟩
  | cons l ls ih =>
    obtain ⟨hl, hls⟩ := List.forall_mem_cons.1 h
    obtain ⟨hafter, hcolours⟩ := ih hls
    rw [after_cons, entries, next_comment hl, Trace.colours, hcolours, Trace.shown,
      if_neg (fun hstring => by cases hstring.1), List.replicate_append_replicate, total_cons]
    exact ⟨hafter, rfl⟩

/-! ### A line with a comment -/

/-- No key of the header starts with a percent sign. -/
theorem extent_percent (cs : Text) : stock.grammar.extent true ('%' :: cs) = 1 := by
  refine Grammar.extent_of_rules [.headerKey, .other] (by decide) ?_ (Nat.le_refl 1)
  rw [List.findSome?_cons, extent?_headerKey_of_head (by decide) (by decide +kernel)]
  rfl

/-- A comment in the markup, and its newline. -/
theorem coloursFrom_commentLine {s : State} (hmode : s.mode = .markup) {c : Text}
    (hc : WithinLine c) :
    stock.after s (stock.grammar.scanText ('%' :: c ++ ['\n'])) = ⟨.plain, .markup, s.previous⟩ ∧
      stock.coloursFrom s ('%' :: c ++ ['\n']) =
        List.replicate (byteSize ('%' :: c)) .languageComment ++ [.plain] := by
  obtain ⟨inside, newline, hscan, htext, hinside⟩ :=
    Grammar.exists_scan_line stock_onOneLine hc (0 + byteSize ['%'])
  have hsize : total inside = byteSize c := by
    have htotal := stock.grammar.total_scan (0 + byteSize ['%']) false (c ++ ['\n'])
    rw [hscan, total_append, total_cons, total_nil, Lexeme.size, htext, byteSize_append] at htotal
    exact Nat.add_right_cancel htotal
  obtain ⟨hafter, hcolours⟩ := entries_comment (r := stock) (p := s.previous) hinside
  have hconsistent : (⟨.languageComment, .markup, s.previous⟩ : State).Consistent :=
    ⟨fun h => (by cases h), fun h => (by cases h), fun _ => rfl⟩
  have hopen : ¬ (stock.after ⟨.languageComment, .markup, s.previous⟩ inside).InLineString := by
    rw [hafter]
    exact fun h => by cases h.1
  have hsplit := colours_entries_append hconsistent hopen [newline]
  have hplain : Trace.colours (stock.entries ⟨.languageComment, .markup, s.previous⟩ [newline]) =
      [.plain] := by
    simp only [entries, htext, next_newline_comment, Trace.colours, Trace.shown, Lexeme.size]
    rfl
  rw [coloursFrom, Grammar.scanText, List.cons_append,
    Grammar.scan_character (by decide) (extent_percent _), hscan, after_cons, entries,
    next_percent hmode, after_append, hafter, Trace.colours, hsplit, hcolours, hafter, hplain,
    Trace.shown, if_neg (fun hstring => by cases hstring.1), ← List.append_assoc,
    List.replicate_append_replicate, hsize, after_cons, htext, next_newline_comment]
  exact ⟨rfl, rfl⟩

/-! ### Texts with a comment -/

/-- How a text is shown: a pass over the whole of it, from scratch, gives its bytes these styles and
leads to this state. -/
def Paints (r : Registry) (text : Text) (colours : List Style) (s : State) : Prop :=
  ∃ pass st, (Styler.ofRegistry r).style text 0 (byteSize text) = .ok (pass, st) ∧
    r.styleText text = .ok pass.spans ∧ Span.colours pass.spans = colours ∧ pass.endState = s

/-- Every text is shown, in one way. -/
theorem paints_iff {text : Text} {colours : List Style} {s : State} :
    r.Paints text colours s ↔ r.colours text = colours ∧ r.stateAfter text = s := by
  obtain ⟨pass, st, hpass, hstyled, hspans, hend⟩ := r.styleText_eq text
  have hcolours : Span.colours pass.spans = r.colours text := by
    rw [hspans, Trace.colours_lexemeSpans, Registry.colours]
  rw [← hcolours, ← hend]
  constructor
  · rintro ⟨pass', st', hpass', -, hcolours', hend'⟩
    cases hpass.symm.trans hpass'
    exact ⟨hcolours', hend'⟩
  · rintro ⟨hcolours', hend'⟩
    exact ⟨pass, st, hpass, hstyled, hcolours', hend'⟩

/-- **Nothing but its own bytes depends on what a comment says.** Behind whole lines that leave the
lexer in the markup, a percent sign makes a comment of its line. The lines before are shown as they
are without it, its own bytes are those of a comment, and how the newline and the text behind are
shown, and the state at the end, are the same for all comments. -/
theorem paints_comment {a : Text} (ha : WholeLines a) {front : List Style} {s : State}
    (hfront : stock.Paints a front s) (hmode : s.mode = .markup) (b : Text) :
    ∃ back s', back.length = byteSize ('\n' :: b) ∧
      ∀ c : Text, WithinLine c →
        stock.Paints (a ++ '%' :: c ++ '\n' :: b)
          (front ++ List.replicate (byteSize ('%' :: c)) .languageComment ++ back) s' := by
  obtain ⟨rfl, rfl⟩ := paints_iff.1 hfront
  refine ⟨.plain :: stock.coloursFrom ⟨.plain, .markup, (stock.stateAfter a).previous⟩ b,
    stock.after ⟨.plain, .markup, (stock.stateAfter a).previous⟩ (stock.grammar.scanText b),
    ?_, fun c hc => paints_iff.2 ?_⟩
  · rw [List.length_cons, coloursFrom, Trace.length_colours, map_lexeme_entries,
      Grammar.total_scan, byteSize_cons, Nat.add_comm]
    rfl
  · obtain ⟨hafter, hcolours⟩ := coloursFrom_commentLine hmode hc
    have hline : WholeLines ('%' :: c ++ ['\n']) := wholeLines_snoc _
    have htext : a ++ '%' :: c ++ '\n' :: b = a ++ ('%' :: c ++ ['\n'] ++ b) := by simp
    have hsplit := coloursFrom_append stock_onOneLine hline (stock.consistent_stateAfter a)
      (by rw [hafter]; exact fun h => by cases h.1) b
    rw [htext, colours_append stock_onOneLine ha, stateAfter_append stock_onOneLine ha, hsplit,
      after_scan_append stock_onOneLine hline, hafter, hcolours]
    exact ⟨by simp, rfl⟩

/-- A comment with quotes, a tag and dots, and an empty one, behind a script and before another. -/
theorem paints_comment_quotes :
    WholeLines "....\n....\n".toList ∧
    ∃ front s, stock.Paints "....\n....\n".toList front s ∧ s.mode = .markup ∧
      ∃ back s', stock.Paints "....\n....\n% it's #IF\x7b \"a\" ....\n....\nx = 'b'".toList
          (front ++ List.replicate 20 .languageComment ++ back) s' ∧
        stock.Paints "....\n....\n%\n....\nx = 'b'".toList (front ++ [.languageComment] ++ back)
          s' := by
  have ha : WholeLines "....\n....\n".toList := by decide
  have hmode : (stock.stateAfter "....\n....\n".toList).mode = .markup := by decide +kernel
  have hfront : stock.Paints "....\n....\n".toList _ _ := paints_iff.2 ⟨rfl, rfl⟩
  obtain ⟨back, s', -, hpaints⟩ := paints_comment ha hfront hmode "....\nx = 'b'".toList
  exact ⟨ha, _, _, hfront, hmode, back, s',
    hpaints " it's #IF\x7b \"a\" ....".toList (by decide), hpaints [] (by decide)⟩

end Registry

end TemplateStyler
