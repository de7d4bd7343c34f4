import TemplateStyler.Proofs.Styler.Course

/-!
# The colours of a trace

The spans of a range are read off a trace with the strings that wait for their end. Here the same is
said without waiting: every entry looks ahead to see whether its string is given up
(`Trace.givesUp`), and so every byte has a style of its own (`Trace.colours`).

* `colours_spans`: **the spans of a range are the part of the colours between its ends.**
* `colours_append`: at a line start the colours split, because no string that could still be given
  up is open there. After it they depend on the state at the line start and the text alone
  (`coloursFrom`, which splits in the same way by `coloursFrom_append`).
-/

namespace TemplateStyler

open Text Lexeme

/-- The style of each byte that spans paint. -/
def Span.colours (spans : List Span) : List Style :=
  spans.flatMap fun span => List.replicate span.length span.style

@[simp] theorem Span.length_colours (spans : List Span) :
    (Span.colours spans).length = Span.total spans := by
  induction spans with
  | nil => rfl
  | cons span spans ih =>
    simp only [Span.colours] at ih
    simp [Span.colours, Span.total, ih]

namespace Trace

/-! ### Looking ahead -/

/-- Whether the string that is open before a trace is given up in it. -/
def givesUp : Trace → Bool
  | [] => false
  | e :: rest =>
    if e.after.mode = .string then givesUp rest else e.after.style == .unclosedString

/-- The style in which an entry is shown before the rest of its trace. -/
def shown (e : Entry) (rest : Trace) : Style :=
  if e.after.mode = .string ∧ givesUp rest = true then .unclosedString else e.after.style

/-- The style of each byte of a trace. -/
def colours : Trace → List Style
  | [] => []
  | e :: rest => List.replicate e.lexeme.size (shown e rest) ++ colours rest

/-- The spans of a whole trace: one for each entry, in the style in which it is shown. -/
def lexemeSpans : Trace → List Span
  | [] => []
  | e :: rest => ⟨e.lexeme.size, shown e rest⟩ :: lexemeSpans rest

theorem colours_lexemeSpans (t : Trace) : Span.colours t.lexemeSpans = t.colours := by
  induction t with
  | nil => rfl
  | cons e rest ih => rw [colours, ← ih, lexemeSpans, Span.colours, List.flatMap_cons]; rfl

theorem length_colours (t : Trace) : t.colours.length = total (t.map Entry.lexeme) := by
  induction t with
  | nil => rfl
  | cons e rest ih => simp [colours, ih]

/-- The spans of a range, each in the style in which its entry is shown. -/
def shownSpans (start stop : Nat) : Trace → List Span
  | [] => []
  | e :: rest =>
    (e.clip start stop).map (fun span => { span with style := shown e rest }) ++
      shownSpans start stop rest

theorem clip_eq (start stop : Nat) (e : Entry) :
    e.clip start stop =
      if max e.lexeme.start start < min e.lexeme.stop stop then
        [⟨min e.lexeme.stop stop - max e.lexeme.start start, e.after.style⟩]
      else [] := rfl

theorem map_clip (start stop : Nat) (e : Entry) :
    (e.clip start stop).map (fun span => { span with style := e.after.style }) =
      e.clip start stop := by
  rw [clip_eq]
  split_ifs <;> rfl

/-- Waiting for the end of a string is looking ahead to it. -/
theorem spansAfter_eq (start stop : Nat) (waiting : List Span) (t : Trace) :
    t.spansAfter start stop waiting =
      (if givesUp t then unclosed waiting else waiting) ++ t.shownSpans start stop := by
  induction t generalizing waiting with
  | nil => simp [spansAfter, givesUp, shownSpans]
  | cons e rest ih =>
    rw [spansAfter, shownSpans, givesUp]
    by_cases hmode : e.after.mode = .string
    · simp only [hmode, if_true, ih, shown, true_and]
      cases givesUp rest with
      | true => simp [unclosed]
      | false => simp [map_clip]
    · simp only [hmode, if_false, ih, shown, false_and, map_clip, beq_iff_eq]
      by_cases hstyle : e.after.style = .unclosedString
      · have hclip : unclosed (e.clip start stop) = e.clip start stop := by
          rw [unclosed, ← hstyle, map_clip]
        have happend : unclosed (waiting ++ e.clip start stop) =
            unclosed waiting ++ e.clip start stop := by
          rw [← hclip, unclosed, List.map_append]
          simp [unclosed]
        simp only [hstyle, if_true, happend, List.append_assoc]
        simp [unclosed]
      · simp [hstyle, unclosed]

theorem spans_eq (start stop : Nat) (t : Trace) : t.spans start stop = t.shownSpans start stop := by
  rw [spans, spansAfter_eq]
  simp [unclosed]

/-- In a range that holds a whole trace each entry has one span. -/
theorem spans_of_within {start stop pos : Nat} {t : Trace}
    (ht : Consecutive pos (t.map Entry.lexeme)) (hsize : ∀ e ∈ t, 0 < e.lexeme.size)
    (hstart : start ≤ pos) (hstop : pos + total (t.map Entry.lexeme) ≤ stop) :
    t.spans start stop = t.lexemeSpans := by
  rw [spans_eq]
  induction t generalizing pos with
  | nil => rfl
  | cons e rest ih =>
    obtain ⟨hpos, hrest⟩ := ht
    rw [List.map_cons, total_cons] at hstop
    have hsize' := hsize e List.mem_cons_self
    have hend : e.lexeme.stop = pos + e.lexeme.size := by rw [Lexeme.stop, hpos]
    have hclip : e.clip start stop = [⟨e.lexeme.size, e.after.style⟩] := by
      rw [clip_eq, hend, hpos, Nat.max_eq_left hstart, Nat.min_eq_left (by omega),
        if_pos (by omega), Nat.add_sub_cancel_left]
    rw [shownSpans, lexemeSpans, hclip,
      ih hrest (fun e' he' => hsize e' (List.mem_cons_of_mem _ he')) (by omega) (by omega)]
    rfl

theorem colours_clip (start stop : Nat) (e : Entry) (style : Style) :
    Span.colours ((e.clip start stop).map fun span => { span with style := style }) =
      ((List.replicate e.lexeme.size style).take (stop - e.lexeme.start)).drop
        (start - e.lexeme.start) := by
  rw [clip_eq, Lexeme.stop, List.take_replicate, List.drop_replicate]
  split_ifs with h
  · simp only [List.map_cons, List.map_nil, Span.colours, List.flatMap_cons, List.flatMap_nil,
      List.append_nil]
    congr 1
    omega
  · rw [show min (stop - e.lexeme.start) e.lexeme.size - (start - e.lexeme.start) = 0 by omega]
    rfl

theorem colours_shownSpans (start stop : Nat) {pos : Nat} {t : Trace}
    (ht : Consecutive pos (t.map Entry.lexeme)) :
    Span.colours (t.shownSpans start stop) = (t.colours.take (stop - pos)).drop (start - pos) := by
  induction t generalizing pos with
  | nil => simp [shownSpans, colours, Span.colours]
  | cons e rest ih =>
    obtain ⟨hpos, hrest⟩ := ht
    have hcons : Span.colours (shownSpans start stop (e :: rest)) =
        Span.colours ((e.clip start stop).map fun span => { span with style := shown e rest }) ++
          Span.colours (shownSpans start stop rest) := by
      simp [shownSpans, Span.colours]
    rw [hcons, colours_clip, ih hrest, colours, hpos, List.take_append, List.drop_append,
      List.length_take, List.length_replicate, Lexeme.stop, hpos]
    congr 1
    by_cases hlt : stop - pos < e.lexeme.size
    · rw [show stop - (pos + e.lexeme.size) = 0 by omega,
        show stop - pos - e.lexeme.size = 0 by omega]
      simp
    · rw [show stop - (pos + e.lexeme.size) = stop - pos - e.lexeme.size by omega,
        show start - pos - min (stop - pos) e.lexeme.size = start - (pos + e.lexeme.size) by omega]

/-- **The spans of a range are the part of the colours between its ends.** -/
theorem colours_spans (start stop : Nat) {pos : Nat} {t : Trace}
    (ht : Consecutive pos (t.map Entry.lexeme)) :
    Span.colours (t.spans start stop) = (t.colours.take (stop - pos)).drop (start - pos) := by
  rw [spans_eq, colours_shownSpans start stop ht]

end Trace

namespace Registry

/-! ### Colours at line starts -/

variable {r : Registry}

/-- A string that may run over the end of its line is not given up. -/
theorem givesUp_entries {s : State} (hs : s.Consistent) (hmode : s.mode = .string)
    (hnot : ¬ s.InLineString) (ls : List Lexeme) : Trace.givesUp (r.entries s ls) = false := by
  induction ls with
  | nil => rfl
  | cons l ls ih =>
    have hsingle : s.style.isSingleLine = false := by
      by_contra hsingle
      exact hnot ⟨hmode, by simpa using hsingle⟩
    have hprevious : s.previous ≠ .string := by
      rcases hs.previous hmode with h | h <;> rw [h] <;> decide
    simp only [entries, Trace.givesUp, r.next_string hs hmode, hsingle, Bool.and_false]
    by_cases hclose : s.style.closingQuote? = some l.text
    · have hstyle : s.style ≠ .unclosedString := by
        intro hstyle
        rw [hstyle] at hclose
        cases hclose
      simp [hclose, hprevious, hstyle]
    · simp [hclose, hmode, ih]

theorem givesUp_append {s : State} (hs : s.Consistent) (hmode : s.mode = .string)
    {ls : List Lexeme} (hnot : ¬ (r.after s ls).InLineString) (ls' : List Lexeme) :
    Trace.givesUp (r.entries s (ls ++ ls')) = Trace.givesUp (r.entries s ls) := by
  induction ls generalizing s with
  | nil => exact givesUp_entries hs hmode hnot ls'
  | cons l ls ih =>
    simp only [List.cons_append, entries, Trace.givesUp]
    by_cases hmode' : (r.next l.text s).mode = .string
    · simp only [hmode', if_true]
      exact ih (r.consistent_next hs _) hmode' hnot
    · simp only [hmode', if_false]

/-- Where no string is open that ends with its line, the spans of a trace split. -/
theorem lexemeSpans_entries_append {s : State} (hs : s.Consistent) {ls : List Lexeme}
    (hnot : ¬ (r.after s ls).InLineString) (ls' : List Lexeme) :
    Trace.lexemeSpans (r.entries s (ls ++ ls')) =
      Trace.lexemeSpans (r.entries s ls) ++ Trace.lexemeSpans (r.entries (r.after s ls) ls') := by
  induction ls generalizing s with
  | nil => rfl
  | cons l ls ih =>
    have hs' := r.consistent_next hs l.text
    simp only [List.cons_append, entries, Trace.lexemeSpans, ih hs' hnot, after_cons]
    congr 2
    simp only [Trace.shown]
    by_cases hmode : (r.next l.text s).mode = .string
    · rw [givesUp_append hs' hmode hnot]
    · simp [hmode]

/-- They depend on the texts of the lexemes alone. -/
theorem lexemeSpans_congr {ls ls' : List Lexeme} (h : ls.map Lexeme.text = ls'.map Lexeme.text)
    (s : State) :
    Trace.lexemeSpans (r.entries s ls) = Trace.lexemeSpans (r.entries s ls') ∧
      Trace.givesUp (r.entries s ls) = Trace.givesUp (r.entries s ls') := by
  induction ls generalizing s ls' with
  | nil =>
    rw [List.map_nil, eq_comm, List.map_eq_nil_iff] at h
    subst h
    exact ⟨rfl, rfl⟩
  | cons l ls ih =>
    obtain ⟨l', ls', rfl, hl, hls⟩ := List.map_eq_cons_iff.1 h.symm
    obtain ⟨hspans, hgives⟩ := ih hls.symm (r.next l.text s)
    simp only [entries, Trace.lexemeSpans, Trace.givesUp, Trace.shown, size, hl, hspans, hgives,
      and_self]

theorem colours_entries_append {s : State} (hs : s.Consistent) {ls : List Lexeme}
    (hnot : ¬ (r.after s ls).InLineString) (ls' : List Lexeme) :
    Trace.colours (r.entries s (ls ++ ls')) =
      Trace.colours (r.entries s ls) ++ Trace.colours (r.entries (r.after s ls) ls') := by
  simp only [← Trace.colours_lexemeSpans]
  rw [lexemeSpans_entries_append hs hnot, Span.colours, List.flatMap_append]
  rfl

theorem colours_congr {ls ls' : List Lexeme} (h : ls.map Lexeme.text = ls'.map Lexeme.text)
    (s : State) : Trace.colours (r.entries s ls) = Trace.colours (r.entries s ls') := by
  rw [← Trace.colours_lexemeSpans, (lexemeSpans_congr h s).1, Trace.colours_lexemeSpans]

/-- The style of each byte of a text. -/
def colours (r : Registry) (text : Text) : List Style := (r.course text).colours

/-- The style of each byte of a text that follows whole lines, by the state there. -/
def coloursFrom (r : Registry) (s : State) (text : Text) : List Style :=
  (r.entries s (r.grammar.scan 0 true text)).colours

@[simp] theorem length_colours (text : Text) : (r.colours text).length = byteSize text := by
  rw [colours, Trace.length_colours, course, map_lexeme_entries]
  exact Grammar.total_scan _ _ _ _

theorem length_coloursFrom (s : State) (text : Text) :
    (r.coloursFrom s text).length = byteSize text := by
  rw [coloursFrom, Trace.length_colours, map_lexeme_entries, Grammar.total_scan]

/-- Behind whole lines after which no string is open that ends with its line, the colours of a text
split. -/
theorem coloursFrom_append (hr : r.OnOneLine) {a : Text} (ha : WholeLines a) {s : State}
    (hs : s.Consistent) (hnot : ¬ (r.after s (r.grammar.scanText a)).InLineString) (b : Text) :
    r.coloursFrom s (a ++ b) =
      r.coloursFrom s a ++ r.coloursFrom (r.after s (r.grammar.scanText a)) b := by
  rw [coloursFrom, Grammar.scan_append_of_start hr ha]
  exact (colours_entries_append hs hnot _).trans
    (congrArg _ (colours_congr (Grammar.map_text_scan _ _ _ _ _) _))

/-- **At a line start the colours of a text split.** -/
theorem colours_append (hr : r.OnOneLine) {a : Text} (ha : WholeLines a) (b : Text) :
    r.colours (a ++ b) = r.colours a ++ r.coloursFrom (r.stateAfter a) b :=
  coloursFrom_append hr ha State.consistent_initial (not_inLineString_stateAfter hr ha) b

theorem take_colours (hr : r.OnOneLine) {a : Text} (ha : WholeLines a) (b : Text) :
    (r.colours (a ++ b)).take (byteSize a) = r.colours a := by
  rw [colours_append hr ha, List.take_left' (length_colours a)]

theorem drop_colours (hr : r.OnOneLine) {a : Text} (ha : WholeLines a) (b : Text) :
    (r.colours (a ++ b)).drop (byteSize a) = r.coloursFrom (r.stateAfter a) b := by
  rw [colours_append hr ha, List.drop_left' (length_colours a)]

theorem getElem?_colours_behind (hr : r.OnOneLine) {a : Text} (ha : WholeLines a) (b : Text)
    {pos : Nat} (hpos : byteSize a ≤ pos) :
    (r.colours (a ++ b))[pos]? = (r.coloursFrom (r.stateAfter a) b)[pos - byteSize a]? := by
  rw [← drop_colours hr ha, List.getElem?_drop, Nat.add_sub_cancel' hpos]

end Registry

end TemplateStyler
