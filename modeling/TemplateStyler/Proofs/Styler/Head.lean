import TemplateStyler.Proofs.Styler.Colours

/-!
# The course up to a position

A pass stops at the first lexeme that starts at or after its end. What it sees is the part of the
course of the text that starts before that position.

* `Registry.head`: the part of the course of a text that starts before a position. At a line start
  it splits like the course (`headAfter_append`, `spans_head`, `endState_head`), so that it may be
  taken up there.
* `mem_lineStarts_headAfter`, `exists_of_mem_lineStarts`: its line starts are those of the text.
* `Registry.shownIn`: the styles that a pass between two positions shows. Up to a line start, and up
  to the end of the text, they are the colours of the text (`shownIn_eq`).
-/

namespace TemplateStyler

open Text Lexeme

/-! ### The course up to a position -/

/-- Consecutive lexemes from a position on start at or behind it. -/
theorem Lexeme.Consecutive.filter_of_le {pos stop : Nat} {ls : List Lexeme} (h : Consecutive pos ls)
    (hle : stop ≤ pos) : ls.filter (fun l => l.start < stop) = [] := by
  rw [List.filter_eq_nil_iff]
  intro l hl
  have := h.start_ge hl
  simp only [decide_eq_true_eq]
  omega

/-- Consecutive lexemes start before a position behind all of them. -/
theorem Lexeme.Consecutive.filter_of_lt {pos stop : Nat} {ls : List Lexeme} (h : Consecutive pos ls)
    (hlt : pos + total ls < stop) : ls.filter (fun l => l.start < stop) = ls := by
  rw [List.filter_eq_self]
  intro l hl
  have := h.stop_le hl
  rw [Lexeme.stop] at this
  simp only [decide_eq_true_eq]
  omega

/-- Of consecutive lexemes those that start before a position come first. -/
theorem Lexeme.Consecutive.exists_append_filter {pos : Nat} {ls : List Lexeme}
    (h : Consecutive pos ls) (stop : Nat) :
    ∃ ls', ls = ls.filter (fun l => l.start < stop) ++ ls' ∧ (∀ l ∈ ls', stop ≤ l.start) ∧
      ls.takeWhile (fun l => l.start < stop) = ls.filter (fun l => l.start < stop) := by
  induction ls generalizing pos with
  | nil => exact ⟨[], rfl, by simp, rfl⟩
  | cons l ls ih =>
    by_cases hl : l.start < stop
    · obtain ⟨ls', hls, hge, htake⟩ := ih h.2
      exact ⟨ls', by simpa [hl] using hls, hge, by simp [hl, htake]⟩
    · have hle : stop ≤ pos := h.1 ▸ Nat.le_of_not_lt hl
      have hnil := h.filter_of_le hle
      exact ⟨l :: ls, by rw [hnil]; rfl, fun l' hl' => Nat.le_trans hle (h.start_ge hl'),
        by simp [hnil, hl]⟩

namespace Registry

variable (r : Registry)

theorem mem_entries_filter {s : State} {pos : Nat} {ls : List Lexeme} (h : Consecutive pos ls)
    (stop : Nat) {e : Entry} :
    e ∈ r.entries s (ls.filter fun l => l.start < stop) ↔
      e ∈ r.entries s ls ∧ e.lexeme.start < stop := by
  obtain ⟨ls', hls', hge, -⟩ := h.exists_append_filter stop
  constructor
  · intro he
    have hmem := r.lexeme_mem_of_mem_entries he
    refine ⟨?_, by simpa using (List.mem_filter.1 hmem).2⟩
    rw [hls', entries_append]
    exact List.mem_append_left _ he
  · rintro ⟨he, hlt⟩
    rw [hls', entries_append] at he
    refine (List.mem_append.1 he).resolve_right fun he' => ?_
    have := hge e.lexeme (r.lexeme_mem_of_mem_entries he')
    omega

/-- A shortened trace has no line starts of its own. -/
theorem lineStarts_filter {s : State} {pos : Nat} {ls : List Lexeme} (h : Consecutive pos ls)
    (stop : Nat) {m : Nat × State}
    (hm : m ∈ (r.entries s (ls.filter fun l => l.start < stop)).lineStarts) :
    m ∈ (r.entries s ls).lineStarts := by
  simp only [Trace.lineStarts, List.mem_map, List.mem_filter] at hm ⊢
  obtain ⟨e, ⟨he, hends⟩, heq⟩ := hm
  exact ⟨e, ⟨((r.mem_entries_filter h stop).1 he).1, hends⟩, heq⟩

/-- It keeps those up to its end. -/
theorem mem_lineStarts_filter {s : State} {pos : Nat} {ls : List Lexeme} (h : Consecutive pos ls)
    (hsize : ∀ l ∈ ls, 0 < l.size) {stop p : Nat} (hp : p ≤ stop) {st : State} :
    (p, st) ∈ (r.entries s (ls.filter fun l => l.start < stop)).lineStarts ↔
      (p, st) ∈ (r.entries s ls).lineStarts := by
  refine ⟨r.lineStarts_filter h stop, fun hm => ?_⟩
  simp only [Trace.lineStarts, List.mem_map, List.mem_filter] at hm ⊢
  obtain ⟨e, ⟨he, hends⟩, heq⟩ := hm
  refine ⟨e, ⟨(r.mem_entries_filter h stop).2 ⟨he, ?_⟩, hends⟩, heq⟩
  have hpos := hsize e.lexeme (r.lexeme_mem_of_mem_entries he)
  have hstop : e.lexeme.stop = p := congrArg Prod.fst heq
  rw [Lexeme.stop] at hstop
  omega

/-- The part of the course of a text that starts before a position. -/
def head (text : Text) (stop : Nat) : Trace :=
  r.entries .initial ((r.grammar.scanText text).filter fun l => l.start < stop)

/-- The part of it that stands behind whole lines. -/
def headAfter (a b : Text) (stop : Nat) : Trace :=
  r.entries (r.stateAfter a) ((r.grammar.scan (byteSize a) true b).filter fun l => l.start < stop)

/-- The state at a line start of a text. -/
def stateAt (text : Text) (pos : Nat) : State := r.stateAfter (upTo text pos)

@[simp] theorem stateAt_append (a b : Text) : r.stateAt (a ++ b) (byteSize a) = r.stateAfter a := by
  rw [stateAt, upTo_append]

theorem consistent_stateAt (text : Text) (pos : Nat) : (r.stateAt text pos).Consistent :=
  r.consistent_stateAfter _

theorem headAfter_nil (text : Text) (stop : Nat) : r.headAfter [] text stop = r.head text stop := by
  rw [headAfter, stateAfter_nil]
  rfl

theorem endState_headAfter (a b : Text) (stop : Nat) :
    (r.headAfter a b stop).endState (r.stateAfter a) =
      r.after (r.stateAfter a)
        ((r.grammar.scan (byteSize a) true b).filter fun l => l.start < stop) :=
  r.endState_entries _ _

variable {r}

/-- At a line start no string is open that ends with its line. -/
theorem not_inLineString_stateAt (hr : r.OnOneLine) {text : Text} {pos : Nat}
    (h : IsLineStart text pos) : ¬ (r.stateAt text pos).InLineString := by
  obtain ⟨a, b, rfl, rfl, ha⟩ := isLineStart_iff.1 h
  rw [stateAt_append]
  exact not_inLineString_stateAfter hr ha

/-- Lexemes of a text start before its end. -/
theorem filter_scan {pos stop : Nat} {x : Text} (h : pos + byteSize x ≤ stop) (lineStart : Bool) :
    (r.grammar.scan pos lineStart x).filter (fun l => l.start < stop) =
      r.grammar.scan pos lineStart x := by
  rw [List.filter_eq_self]
  intro l hl
  have h1 := (Grammar.consecutive_scan r.grammar pos lineStart x).stop_le hl
  have h2 := Grammar.size_pos_of_mem_scan hl
  rw [Grammar.total_scan, Lexeme.stop] at h1
  simp only [decide_eq_true_eq]
  omega

/-- **The course up to a position splits at every line start before it.** -/
theorem headAfter_append (hr : r.OnOneLine) {a x : Text} (ha : WholeLines a) (hx : WholeLines x)
    (d : Text) {stop : Nat} (hstop : byteSize (a ++ x) ≤ stop) :
    r.headAfter a (x ++ d) stop =
      r.entries (r.stateAfter a) (r.grammar.scan (byteSize a) true x) ++
        r.headAfter (a ++ x) d stop := by
  rw [byteSize_append] at hstop
  rw [headAfter, Grammar.scan_append_of_start hr hx d, List.filter_append,
    filter_scan hstop, entries_append, headAfter, stateAfter_append hr ha, byteSize_append]

theorem head_append (hr : r.OnOneLine) {a : Text} (ha : WholeLines a) (b : Text) {stop : Nat}
    (hstop : byteSize a ≤ stop) : r.head (a ++ b) stop = r.course a ++ r.headAfter a b stop := by
  rw [← headAfter_nil, headAfter_append hr wholeLines_nil ha b hstop, stateAfter_nil]
  rfl

theorem endState_head (hr : r.OnOneLine) {a : Text} (ha : WholeLines a) (b : Text) {last : Nat}
    (hlast : byteSize a ≤ last) :
    (r.head (a ++ b) last).endState .initial =
      (r.headAfter a b last).endState (r.stateAfter a) := by
  rw [endState_headAfter, head, endState_entries, scanText_append hr ha, List.filter_append,
    Grammar.scanText, filter_scan (by omega), after_append]
  rfl

/-- The spans of a range are not touched by what stops before it. -/
theorem spans_head (hr : r.OnOneLine) {a : Text} (ha : WholeLines a) (b : Text) {first last : Nat}
    (hfirst : byteSize a ≤ first) (hlast : first ≤ last) :
    (r.head (a ++ b) last).spans first last = (r.headAfter a b last).spans first last := by
  have hclip : ∀ e ∈ r.course a, e.clip first last = [] := by
    intro e he
    have hstop := (Grammar.consecutive_scan r.grammar 0 true a).stop_le
      (r.lexeme_mem_of_mem_entries he)
    rw [Grammar.total_scan] at hstop
    rw [Trace.clip_eq, if_neg (by omega)]
  rw [head_append hr ha b (by omega), Trace.spans_eq, Trace.spans_eq]
  generalize r.course a = t at hclip
  induction t with
  | nil => rfl
  | cons e t ih =>
    rw [List.cons_append, Trace.shownSpans, hclip e (by simp),
      ih fun e' he' => hclip e' (by simp [he'])]
    rfl

/-! ### Line starts of a part of a text -/

/-- The line starts of the part behind whole lines are line starts of the text, with their
states. -/
theorem exists_of_mem_lineStarts (hr : r.OnOneLine) {a : Text} (ha : WholeLines a) {b : Text}
    {last : Nat} {m : Nat × State} (hm : m ∈ (r.headAfter a b last).lineStarts) :
    ∃ x y, b = x ++ y ∧ x ≠ [] ∧ WholeLines x ∧ m = (byteSize (a ++ x), r.stateAfter (a ++ x)) := by
  obtain ⟨x, y, hb, hne, hx, hpos, hst⟩ := (mem_lineStarts_iff hr).1
    (r.lineStarts_filter (Grammar.consecutive_scan _ _ _ _) last hm)
  refine ⟨x, y, hb, hne, hx, ?_⟩
  rw [stateAfter_append hr ha, byteSize_append, ← hpos, ← hst]

/-- None of those up to its end is left out. -/
theorem mem_lineStarts_headAfter (hr : r.OnOneLine) {a x : Text} (ha : WholeLines a) (hne : x ≠ [])
    (hx : WholeLines x) (y : Text) {last : Nat} (hlast : byteSize (a ++ x) ≤ last) :
    (byteSize (a ++ x), r.stateAfter (a ++ x)) ∈ (r.headAfter a (x ++ y) last).lineStarts := by
  rw [headAfter, r.mem_lineStarts_filter (Grammar.consecutive_scan _ _ _ _)
    (fun l hl => Grammar.size_pos_of_mem_scan hl) hlast]
  exact (mem_lineStarts_iff hr).2
    ⟨x, y, rfl, hne, hx, byteSize_append a x, stateAfter_append hr ha x⟩

/-- A state is compared with the one at the end of the part, where a line starts there. -/
theorem any_lineStarts (hr : r.OnOneLine) {a b : Text} (ha : WholeLines a) {last : Nat}
    (hlt : byteSize a < last) (known : Option State) :
    (r.headAfter a b last).lineStarts.any (fun m => m.1 == last && known == some m.2) = true ↔
      IsLineStart (a ++ b) last ∧ known = some (r.stateAt (a ++ b) last) := by
  simp only [List.any_eq_true, Bool.and_eq_true, beq_iff_eq]
  constructor
  · rintro ⟨m, hm, hlast, hknown⟩
    obtain ⟨x, y, rfl, -, hx, rfl⟩ := exists_of_mem_lineStarts hr ha hm
    rw [← hlast, ← List.append_assoc, stateAt_append]
    exact ⟨isLineStart_append.2 (ha.append hx), hknown⟩
  · rintro ⟨hstart, rfl⟩
    obtain ⟨u, v, huv, rfl, hu⟩ := isLineStart_iff.1 hstart
    obtain ⟨x, rfl, rfl⟩ := prefix_of_byteSize_le huv (Nat.le_of_lt hlt)
    have hne : x ≠ [] := by
      rintro rfl
      simp at hlt
    exact ⟨_, mem_lineStarts_headAfter hr ha hne hu.of_append v (Nat.le_refl _), rfl,
      by rw [huv, stateAt_append]⟩

/-- The entry at a line start has the state there before it. -/
theorem find?_headAfter (hr : r.OnOneLine) {a x : Text} (ha : WholeLines a) (hx : WholeLines x)
    {d : Text} (hd : d ≠ []) {last : Nat} (hlast : byteSize (a ++ x) < last) :
    ((r.headAfter a (x ++ d) last).find? fun e => e.lexeme.start == byteSize (a ++ x)).map
      Entry.before = some (r.stateAfter (a ++ x)) := by
  have hbefore : (r.entries (r.stateAfter a) (r.grammar.scan (byteSize a) true x)).find?
      (fun e => e.lexeme.start == byteSize (a ++ x)) = none := by
    rw [List.find?_eq_none]
    intro e he
    have hmem := r.lexeme_mem_of_mem_entries he
    have hstop := (Grammar.consecutive_scan r.grammar _ _ _).stop_le hmem
    have hsize := Grammar.size_pos_of_mem_scan hmem
    rw [Grammar.total_scan, Lexeme.stop] at hstop
    simp only [byteSize_append, beq_iff_eq]
    omega
  rw [headAfter_append hr ha hx d (Nat.le_of_lt hlast), List.find?_append, hbefore, Option.none_or]
  cases d with
  | nil => exact absurd rfl hd
  | cons c d =>
    rw [headAfter, Grammar.scan, List.filter_cons_of_pos (by simpa using hlast), entries,
      List.find?_cons_of_pos (by simp)]
    rfl

/-! ### The styles of a range -/

theorem consecutive_head (text : Text) (stop : Nat) :
    Consecutive 0 ((r.head text stop).map Entry.lexeme) := by
  have h := Grammar.consecutive_scan r.grammar 0 true text
  obtain ⟨ls', hls, -⟩ := h.exists_append_filter stop
  rw [hls, consecutive_append] at h
  rw [head, map_lexeme_entries]
  exact h.1

/-- The part that starts before a position reaches up to it. -/
theorem le_length_colours_head {text : Text} {stop : Nat} (hstop : stop ≤ byteSize text) :
    stop ≤ (r.head text stop).colours.length := by
  have h := Grammar.consecutive_scan r.grammar 0 true text
  have htotal := Grammar.total_scan r.grammar 0 true text
  obtain ⟨ls', hls, hge, -⟩ := h.exists_append_filter stop
  rw [Trace.length_colours, head, map_lexeme_entries, Grammar.scanText]
  rw [hls, consecutive_append] at h
  rw [hls, total_append] at htotal
  cases ls' with
  | nil =>
    rw [total_nil] at htotal
    omega
  | cons l ls' =>
    have hl := hge l (by simp)
    have hstart := h.2.1
    omega

/-- The styles that a pass between two positions shows. -/
def shownIn (r : Registry) (text : Text) (first last : Nat) : List Style :=
  ((r.head text last).colours.take last).drop first

theorem colours_spans_head (text : Text) (first last : Nat) :
    Span.colours ((r.head text last).spans first last) = r.shownIn text first last := by
  rw [Trace.colours_spans first last (consecutive_head text last)]
  rfl

theorem length_shownIn {text : Text} {last : Nat} (hlast : last ≤ byteSize text) (first : Nat) :
    (r.shownIn text first last).length = last - first := by
  have := le_length_colours_head (r := r) hlast
  rw [shownIn, List.length_drop, List.length_take]
  omega

/-- **Up to a line start, and up to its end, a text is shown in its colours.** -/
theorem shownIn_eq (hr : r.OnOneLine) {text : Text} {last : Nat}
    (hlast : IsLineStart text last ∨ last = byteSize text) (first : Nat) :
    r.shownIn text first last = ((r.colours text).take last).drop first := by
  rcases hlast with hline | rfl
  · obtain ⟨u, v, rfl, rfl, hu⟩ := isLineStart_iff.1 hline
    have hnone : r.headAfter u v (byteSize u) = [] := by
      rw [headAfter,
        (Grammar.consecutive_scan r.grammar (byteSize u) true v).filter_of_le (Nat.le_refl _)]
      rfl
    rw [shownIn, head_append hr hu v (Nat.le_refl _), hnone, List.append_nil, take_colours hr hu,
      ← Registry.colours, List.take_of_length_le]
    rw [length_colours]
  · rw [shownIn, head, Grammar.scanText, filter_scan (by omega)]
    rfl

end Registry

end TemplateStyler
