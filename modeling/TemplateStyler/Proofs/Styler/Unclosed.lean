import TemplateStyler.Proofs.Styler.Compose
import TemplateStyler.Proofs.Styler.Returning

/-!
# Unclosed strings

A string in single or double quotes that meets a newline is unclosed, and then all of it is shown
so, from its quote on. Nothing else is ever shown in that style.

* `Registry.style_of_cutOff`: the newline that ends such a string is unclosed by itself.
* `Registry.shown_eq_unclosed_iff`: **an entry is shown unclosed if and only if it lies in a literal
  that is cut off**, the quote and the newline included.
* `Registry.styleText_unclosed`: the spans of a whole text, one for each lexeme.
-/

namespace TemplateStyler

open Text Lexeme

/-! ### Parts of a trace -/

namespace Trace

/-- An item within the middle one of three parts divides that part. -/
theorem exists_split_within {a b c front back : Trace} {e : Entry}
    (h : a ++ (b ++ c) = front ++ e :: back) (hle : a.length ≤ front.length)
    (hlt : front.length < a.length + b.length) : ∃ x y, b = x ++ e :: y ∧ back = y ++ c := by
  obtain ⟨x, rfl⟩ : a <+: front := List.prefix_of_prefix_length_le ⟨_, h⟩ ⟨_, rfl⟩ hle
  rw [List.append_assoc] at h
  replace h := List.append_cancel_left h
  rw [List.length_append] at hlt
  have hprefix : x ++ [e] <+: b ++ c := ⟨back, by simp [h]⟩
  obtain ⟨y, rfl⟩ : x ++ [e] <+: b := by
    refine List.prefix_of_prefix_length_le hprefix ⟨_, rfl⟩ ?_
    rw [List.length_append, List.length_singleton]
    omega
  refine ⟨x, y, by simp, ?_⟩
  rw [List.append_assoc, List.append_assoc] at h
  exact (List.cons.inj (List.append_cancel_left h)).2.symm

/-- Entries that follow one another are in the order of their starts. -/
theorem length_le_of_start_le {a b c d : Trace} {x y : Entry} {pos : Nat}
    (ht : Consecutive pos ((a ++ x :: b).map Entry.lexeme))
    (hsize : ∀ e ∈ a ++ x :: b, 0 < e.lexeme.size) (h : a ++ x :: b = c ++ y :: d)
    (hle : x.lexeme.start ≤ y.lexeme.start) : a.length ≤ c.length := by
  by_contra hlt
  have hy : y ∈ a := by
    have hget : (a ++ x :: b)[c.length]? = some y := by simp [h]
    rw [List.getElem?_append_left (by omega)] at hget
    exact List.mem_of_getElem? hget
  have hpos := hsize y (List.mem_append_left _ hy)
  rw [List.map_append, List.map_cons, consecutive_append] at ht
  obtain ⟨hfirst, hstart, -⟩ := ht
  have hstop := hfirst.stop_le (List.mem_map_of_mem hy)
  rw [Lexeme.stop] at hstop
  omega

theorem length_lexemeSpans (t : Trace) :
    t.lexemeSpans.map Span.length = t.map fun e => e.lexeme.size := by
  induction t with
  | nil => rfl
  | cons e rest ih => rw [lexemeSpans, List.map_cons, List.map_cons, ih]

theorem getElem?_lexemeSpans (front : Trace) (e : Entry) (back : Trace) :
    (front ++ e :: back).lexemeSpans[front.length]? = some ⟨e.lexeme.size, shown e back⟩ := by
  induction front with
  | nil => rfl
  | cons e' front ih =>
    rw [List.cons_append, lexemeSpans, List.length_cons, List.getElem?_cons_succ, ih]

end Trace

namespace Registry

variable {r : Registry}

/-! ### Literals that are cut off -/

/-- The newline that ends a literal in single or double quotes is unclosed. -/
theorem style_of_cutOff {ls : List Lexeme} {opening newline : Entry}
    (h : (r.entries .initial ls).CutOff opening newline) :
    newline.after.style = .unclosedString := by
  obtain ⟨before, body, after, htrace, hquote, hbefore, hafter, hbody, hnewline, -⟩ := h
  obtain ⟨ls1, ls2, -, rfl, hopen⟩ := exists_of_entries_append htrace
  obtain ⟨o, ls3, -, rfl, hrest⟩ := exists_of_entries_cons hopen.symm
  obtain ⟨lsb, lsn, -, rfl, hnew⟩ := exists_of_entries_append hrest.symm
  obtain ⟨n, lsa, -, rfl, -⟩ := exists_of_entries_cons hnew.symm
  have hs := r.consistent_after State.consistent_initial ls1
  have hs' := r.consistent_next hs o.text
  have hsingle : (r.next o.text (r.after .initial ls1)).style.isSingleLine = true :=
    (isSingleLine_iff (r.quote_of_next hs hbefore hafter).1).2 hquote
  simp only at hnewline hafter ⊢
  rw [(after_of_string hs' hafter hbody).1, r.next_string hs' hafter, hnewline, hsingle]
  rfl

/-- **What lies in a literal that is cut off is shown unclosed.** -/
theorem shown_of_cutOff {ls : List Lexeme} {front back : Trace} {e opening newline : Entry}
    {pos : Nat} (ht : r.entries .initial ls = front ++ e :: back)
    (hconsecutive : Consecutive pos ls) (hsize : ∀ l ∈ ls, 0 < l.size)
    (hcut : (r.entries .initial ls).CutOff opening newline)
    (hopening : opening.lexeme.start ≤ e.lexeme.start)
    (hnewline : e.lexeme.start ≤ newline.lexeme.start) : Trace.shown e back = .unclosedString := by
  have hstyle := style_of_cutOff hcut
  obtain ⟨before, body, after, hsplit, -, -, hafter, hbody, -, hclosed⟩ := hcut
  rw [← r.map_lexeme_entries .initial ls] at hconsecutive
  have hsize' : ∀ e' ∈ r.entries .initial ls, 0 < e'.lexeme.size := fun e' he' =>
    hsize _ (r.lexeme_mem_of_mem_entries he')
  obtain ⟨x, y, hliteral, rfl⟩ : ∃ x y, opening :: (body ++ [newline]) = x ++ e :: y ∧
      back = y ++ after := by
    have hfirst : before.length ≤ front.length := by
      rw [hsplit] at ht hconsecutive hsize'
      exact Trace.length_le_of_start_le hconsecutive hsize' ht hopening
    have hlast : front.length ≤ (before ++ opening :: body).length := by
      have hsplit' : front ++ e :: back = (before ++ opening :: body) ++ newline :: after := by
        rw [← ht, hsplit]
        simp
      rw [ht] at hconsecutive hsize'
      exact Trace.length_le_of_start_le hconsecutive hsize' hsplit' hnewline
    refine Trace.exists_split_within (a := before) (c := after) ?_ hfirst ?_
    · rw [← ht, hsplit]
      simp
    · simp only [List.length_append, List.length_cons, List.length_nil] at hlast ⊢
      omega
  rw [← List.cons_append] at hliteral
  have hstring : ∀ e' ∈ opening :: body, e'.after.mode = .string :=
    List.forall_mem_cons.2 ⟨hafter, hbody⟩
  rcases List.eq_nil_or_concat y with rfl | ⟨y, last, rfl⟩
  · -- the newline itself
    obtain ⟨-, hlast⟩ := List.append_inj' hliteral rfl
    obtain rfl : newline = e := (List.cons.inj hlast).1
    rw [Trace.shown, if_neg fun h => hclosed h.1, hstyle]
  · rw [List.concat_eq_append, ← List.cons_append, ← List.append_assoc] at hliteral
    obtain ⟨hinside, hlast⟩ := List.append_inj' hliteral rfl
    obtain rfl : newline = last := (List.cons.inj hlast).1
    rw [hinside] at hstring
    have hopen : ∀ e' ∈ y, e'.after.mode = .string := fun e' he' => hstring e' (by simp [he'])
    have hgives : Trace.givesUp (y ++ newline :: after) = true := by
      rw [Trace.givesUp_append_of_string hopen, Trace.givesUp, if_neg hclosed, hstyle]
      rfl
    rw [Trace.shown, List.concat_eq_append, List.append_assoc, List.singleton_append, hgives,
      if_pos ⟨hstring e (by simp), rfl⟩]

/-- The newline that is unclosed by itself ends a literal. -/
theorem exists_cutOff_of_newline {lsf lsb : List Lexeme} {l : Lexeme} {pos : Nat}
    (hconsecutive : Consecutive pos (lsf ++ l :: lsb))
    (hclosed : (r.next l.text (r.after .initial lsf)).mode ≠ .string)
    (hstyle : (r.next l.text (r.after .initial lsf)).style = .unclosedString) :
    ∃ opening newline, (r.entries .initial (lsf ++ l :: lsb)).CutOff opening newline ∧
      opening.lexeme.start ≤ l.start ∧ l.start ≤ newline.lexeme.start := by
  have hopen : (r.after .initial lsf).mode = .string := by
    by_contra hmode
    exact r.style_next_ne_unclosed (r.consistent_after State.consistent_initial lsf) hmode _ hstyle
  rcases List.eq_nil_or_concat lsf with rfl | ⟨lsf, last, rfl⟩
  · cases hopen
  · rw [List.concat_eq_append] at *
    have hgives :
        Trace.givesUp (r.entries (r.after .initial (lsf ++ [last])) (l :: lsb)) = true := by
      rw [entries, Trace.givesUp, if_neg hclosed, hstyle]
      rfl
    obtain ⟨opening, newline, hcut, hopening, hnewline, -⟩ := exists_cutOff hopen hgives
    rw [consecutive_append] at hconsecutive
    obtain ⟨hfirst, hsecond⟩ := hconsecutive
    refine ⟨opening, newline, by simpa using hcut, ?_, ?_⟩
    · have hstop := hfirst.stop_le hopening
      rw [Lexeme.stop] at hstop
      have hstart := hsecond.1
      omega
    · have hstart := hsecond.start_ge (r.lexeme_mem_of_mem_entries hnewline)
      rw [hsecond.1]
      exact hstart

/-- An open string that is shown unclosed is given up behind. -/
theorem exists_cutOff_of_string {text : Text} {front back : Trace} {e : Entry}
    (ht : r.course text = front ++ e :: back) (hmode : e.after.mode = .string)
    (h : Trace.shown e back = .unclosedString) :
    ∃ opening newline, (r.course text).CutOff opening newline ∧
      opening.lexeme.start ≤ e.lexeme.start ∧ e.lexeme.start ≤ newline.lexeme.start := by
  have hmem : e ∈ r.course text := by
    rw [ht]
    simp
  have hgives : Trace.givesUp back = true := by
    by_contra hnot
    -- the style of an open string is that of a quote
    obtain ⟨ls1, ls2, -, -, hafter⟩ := r.exists_of_mem_entries hmem
    have hs := r.consistent_after State.consistent_initial (ls1 ++ [e.lexeme])
    rw [← hafter] at hs
    have hquote := hs.quote hmode
    rw [Trace.shown, if_neg fun h => hnot h.2] at h
    rw [h] at hquote
    cases hquote
  have hstart := start_of_course_eq ht
  have hsize : 0 < e.lexeme.size := Grammar.size_pos_of_mem_scan (r.lexeme_mem_of_mem_entries hmem)
  have hle : total (front.map Entry.lexeme) ≤ e.lexeme.start := by omega
  obtain ⟨opening, newline, hcut, hopening, hnewline, -⟩ :=
    exists_cutOff_around ht hle (by omega) hmode hgives
  exact ⟨opening, newline, hcut, hopening, Nat.le_of_lt hnewline⟩

/-- **An entry is shown unclosed if and only if it lies in a literal that is cut off.** -/
theorem shown_eq_unclosed_iff {text : Text} {front back : Trace} {e : Entry}
    (ht : r.course text = front ++ e :: back) :
    Trace.shown e back = .unclosedString ↔
      ∃ opening newline, (r.course text).CutOff opening newline ∧
        opening.lexeme.start ≤ e.lexeme.start ∧ e.lexeme.start ≤ newline.lexeme.start := by
  have hconsecutive := Grammar.consecutive_scan r.grammar 0 true text
  rw [← Grammar.scanText] at hconsecutive
  constructor
  · intro h
    by_cases hmode : e.after.mode = .string
    · exact exists_cutOff_of_string ht hmode h
    · obtain ⟨lsf, lsx, hls, rfl, hx⟩ := exists_of_entries_append ht
      obtain ⟨l, lsb, rfl, rfl, rfl⟩ := exists_of_entries_cons hx.symm
      rw [Trace.shown, if_neg fun h => hmode h.1] at h
      rw [hls] at hconsecutive
      rw [course, hls]
      exact exists_cutOff_of_newline hconsecutive hmode h
  · rintro ⟨opening, newline, hcut, hopening, hnewline⟩
    exact shown_of_cutOff ht hconsecutive
      (fun l hl => Grammar.size_pos_of_mem_scan hl) hcut hopening hnewline

/-- **Exactly the literals that are cut off are shown unclosed.** A text has one span for each of
its lexemes, in order. A span is that of an unclosed string if and only if its lexeme lies between a
single or double quote that opens a string and the newline that leaves it, both included. Every
other span has the style that the steps from the initial state give its lexeme. -/
theorem styleText_unclosed (r : Registry) (text : Text) :
    ∃ ls t spans, r.grammar.lexemes text 0 (byteSize text) = .ok ls ∧
      r.trace .initial ls = .ok t ∧ r.styleText text = .ok spans ∧
      t.map Entry.lexeme = ls ∧ spans.map Span.length = ls.map Lexeme.size ∧
      ∀ i e, t[i]? = some e →
        r.walk .initial (ls.take (i + 1)) = .ok e.after ∧
        ∃ span, spans[i]? = some span ∧
          (span.style = .unclosedString ↔ ∃ opening newline, t.CutOff opening newline ∧
            opening.lexeme.start ≤ e.lexeme.start ∧ e.lexeme.start ≤ newline.lexeme.start) ∧
          (span.style ≠ .unclosedString → span.style = e.after.style) := by
  obtain ⟨pass, -, -, hstyled, hspans, -⟩ := r.styleText_eq text
  have hlexemes := r.grammar.lexemes_wholeLines wholeLines_nil text
  rw [List.nil_append, byteSize_nil] at hlexemes
  have hmap : (r.course text).map Entry.lexeme = r.grammar.scanText text :=
    r.map_lexeme_entries _ _
  refine ⟨_, r.course text, pass.spans, hlexemes, r.trace_eq_entries State.consistent_initial _,
    hstyled, hmap, ?_, fun i e he => ?_⟩
  · rw [hspans, Trace.length_lexemeSpans, ← Grammar.scanText, ← hmap, List.map_map]
    rfl
  · obtain ⟨hi, he⟩ := List.getElem?_eq_some_iff.1 he
    obtain ⟨front, back, ht, rfl⟩ : ∃ front back, r.course text = front ++ e :: back ∧
        front.length = i := by
      refine ⟨(r.course text).take i, (r.course text).drop (i + 1), ?_, ?_⟩
      · rw [← he, List.getElem_cons_drop, List.take_append_drop]
      · exact List.length_take_of_le (Nat.le_of_lt hi)
    refine ⟨?_, ⟨e.lexeme.size, Trace.shown e back⟩, ?_, shown_eq_unclosed_iff ht, fun hne => ?_⟩
    · obtain ⟨lsf, lsx, hls, rfl, hx⟩ := exists_of_entries_append ht
      obtain ⟨l, lsb, rfl, rfl, rfl⟩ := exists_of_entries_cons hx.symm
      have htake : (r.grammar.scan 0 true text).take ((r.entries .initial lsf).length + 1) =
          lsf ++ [l] := by
        rw [← Grammar.scanText, hls, ← List.length_map Entry.lexeme, map_lexeme_entries,
          List.take_append, List.take_of_length_le (Nat.le_succ _), Nat.add_sub_cancel_left]
        rfl
      rw [htake, walk_eq_after r State.consistent_initial, after_append]
      rfl
    · rw [hspans, ht, Trace.getElem?_lexemeSpans]
    · by_contra hother
      rw [Trace.shown] at hne hother
      split_ifs at hne hother
      · exact hne rfl
      · exact hother rfl

/-- A string that its line leaves open, and behind it one that is closed. -/
theorem styleText_unclosed_closed :
    ∃ (text : Text) (ls : List Lexeme) (t : Trace) (cut closed : Entry),
      text = "....\n'a\n'b'\n".toList ∧
      Grammar.lexemes (Registry.grammar {}) text 0 (byteSize text) = .ok ls ∧
      Registry.trace {} .initial ls = .ok t ∧
      styleText {} text = .ok [⟨4, .blockDelimiter⟩, ⟨1, .scriptBody⟩, ⟨1, .unclosedString⟩,
        ⟨1, .unclosedString⟩, ⟨1, .unclosedString⟩, ⟨1, .singleQuoteString⟩,
        ⟨1, .singleQuoteString⟩, ⟨1, .singleQuoteString⟩, ⟨1, .scriptBody⟩] ∧
      t[3]? = some cut ∧
      (∃ opening newline, t.CutOff opening newline ∧
        opening.lexeme.start ≤ cut.lexeme.start ∧ cut.lexeme.start ≤ newline.lexeme.start) ∧
      t[6]? = some closed ∧ closed.after.style = .singleQuoteString ∧
      ¬ ∃ opening newline, t.CutOff opening newline ∧
        opening.lexeme.start ≤ closed.lexeme.start ∧
        closed.lexeme.start ≤ newline.lexeme.start := by
  have hrun : styleText {} "....\n'a\n'b'\n".toList =
      .ok [⟨4, .blockDelimiter⟩, ⟨1, .scriptBody⟩, ⟨1, .unclosedString⟩, ⟨1, .unclosedString⟩,
        ⟨1, .unclosedString⟩, ⟨1, .singleQuoteString⟩, ⟨1, .singleQuoteString⟩,
        ⟨1, .singleQuoteString⟩, ⟨1, .scriptBody⟩] := by
    decide +kernel
  obtain ⟨ls, t, spans, hlexemes, ht, hspans, hmap, hlengths, hall⟩ :=
    styleText_unclosed {} "....\n'a\n'b'\n".toList
  obtain rfl := Except.ok.inj (hrun.symm.trans hspans)
  have hlength : t.length = 9 := by
    have hcount := congrArg List.length hlengths
    rw [← hmap] at hcount
    simpa using hcount.symm
  have hthird : t[3]? = some t[3] := List.getElem?_eq_getElem _
  have hsixth : t[6]? = some t[6] := List.getElem?_eq_getElem _
  obtain ⟨-, span, hspan, hiff, -⟩ := hall 3 _ hthird
  obtain ⟨-, span', hspan', hiff', hother⟩ := hall 6 _ hsixth
  obtain rfl := Option.some.inj hspan
  obtain rfl := Option.some.inj hspan'
  exact ⟨_, ls, t, _, _, rfl, hlexemes, ht, hrun, hthird, hiff.1 rfl, hsixth,
    (hother (by decide)).symm, fun h => absurd (hiff'.2 h) (by decide)⟩

end Registry

end TemplateStyler
