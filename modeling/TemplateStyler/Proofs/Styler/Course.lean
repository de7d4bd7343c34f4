import TemplateStyler.Proofs.Lexeme.Scan
import TemplateStyler.Proofs.State.Consistent
import TemplateStyler.Styler.Trace

/-!
# The course of a text

The course of a text is the trace of its lexemes from the initial state. At a line start it splits:
the part before is the course of the lines before, and the part after depends on them through one
state only.

* `Registry.entries` is the trace of lexemes from a state, which never fails where the state is
  consistent (`trace_eq_entries`); `Registry.after` is the state that they lead to.
* `Registry.course`, `Registry.stateAfter`: the trace of a whole text and the state at its end.
  `course_append` and `stateAfter_append` split them at a line start, `after_scan_append` splits
  what follows it.
* `mem_lineStarts_iff`: **the line starts of a trace** are the line starts of its text, with their
  states.
* `after_scan_of_wholeLines`: what every newline brings about holds at every line start, such as
  that no string is open that ends with its line (`not_inLineString_after`).
-/

namespace TemplateStyler

open Text Lexeme

namespace Registry

variable (r : Registry)

/-! ### Entries -/

/-- The trace of lexemes from a state. -/
def entries : State → List Lexeme → Trace
  | _, [] => []
  | s, l :: ls => ⟨l, s, r.next l.text s⟩ :: entries (r.next l.text s) ls

/-- The state after lexemes. -/
def after (s : State) (ls : List Lexeme) : State := ls.foldl (fun s l => r.next l.text s) s

/-- The state reached by stepping through lexemes, where every step is one. -/
def walk (s : State) (ls : List Lexeme) : Except Fault State :=
  ls.foldlM (fun s l => r.step l.text s) s

@[simp] theorem after_nil (s : State) : r.after s [] = s := rfl

@[simp] theorem after_cons (s : State) (l : Lexeme) (ls : List Lexeme) :
    r.after s (l :: ls) = r.after (r.next l.text s) ls := rfl

@[simp] theorem after_append (s : State) (ls ls' : List Lexeme) :
    r.after s (ls ++ ls') = r.after (r.after s ls) ls' := List.foldl_append

theorem consistent_after {s : State} (hs : s.Consistent) (ls : List Lexeme) :
    (r.after s ls).Consistent := by
  induction ls generalizing s with
  | nil => exact hs
  | cons l ls ih => exact ih (r.consistent_next hs l.text)

theorem trace_eq_entries {s : State} (hs : s.Consistent) (ls : List Lexeme) :
    r.trace s ls = .ok (r.entries s ls) := by
  induction ls generalizing s with
  | nil => rfl
  | cons l ls ih =>
    rw [trace, r.step_eq_next hs]
    simp only [bind, Except.bind, ih (r.consistent_next hs l.text)]
    rfl

theorem walk_eq_after {s : State} (hs : s.Consistent) (ls : List Lexeme) :
    r.walk s ls = .ok (r.after s ls) := by
  induction ls generalizing s with
  | nil => rfl
  | cons l ls ih =>
    rw [walk, List.foldlM_cons, r.step_eq_next hs]
    exact ih (r.consistent_next hs l.text)

@[simp] theorem map_lexeme_entries (s : State) (ls : List Lexeme) :
    (r.entries s ls).map Entry.lexeme = ls := by
  induction ls generalizing s with
  | nil => rfl
  | cons l ls ih => simp [entries, ih]

theorem entries_append (s : State) (ls ls' : List Lexeme) :
    r.entries s (ls ++ ls') = r.entries s ls ++ r.entries (r.after s ls) ls' := by
  induction ls generalizing s with
  | nil => rfl
  | cons l ls ih => simp [entries, ih]

theorem endState_entries (s : State) (ls : List Lexeme) :
    (r.entries s ls).endState s = r.after s ls := by
  rcases List.eq_nil_or_concat ls with rfl | ⟨ls', l, rfl⟩
  · rfl
  · rw [List.concat_eq_append, entries_append, after_append]
    simp [Trace.endState, entries]

/-- An entry stands between the lexemes before it and those after it. -/
theorem exists_of_mem_entries {s : State} {ls : List Lexeme} {e : Entry}
    (h : e ∈ r.entries s ls) :
    ∃ ls1 ls2, ls = ls1 ++ e.lexeme :: ls2 ∧ e.before = r.after s ls1 ∧
      e.after = r.after s (ls1 ++ [e.lexeme]) := by
  induction ls generalizing s with
  | nil => simp [entries] at h
  | cons l ls ih =>
    rcases List.mem_cons.1 h with rfl | h
    · exact ⟨[], ls, rfl, rfl, rfl⟩
    · obtain ⟨ls1, ls2, hls, hbefore, hafter⟩ := ih h
      exact ⟨l :: ls1, ls2, by rw [hls]; rfl, hbefore, hafter⟩

theorem lexeme_mem_of_mem_entries {s : State} {ls : List Lexeme} {e : Entry}
    (h : e ∈ r.entries s ls) : e.lexeme ∈ ls := by
  obtain ⟨ls1, ls2, rfl, -⟩ := r.exists_of_mem_entries h
  simp

/-- An entry is a step from a consistent state. -/
theorem step_of_mem_entries {s : State} (hs : s.Consistent) {ls : List Lexeme} {e : Entry}
    (h : e ∈ r.entries s ls) :
    e.before.Consistent ∧ e.after = r.next e.lexeme.text e.before := by
  obtain ⟨ls1, ls2, -, hbefore, hafter⟩ := r.exists_of_mem_entries h
  rw [hafter, after_append, hbefore]
  exact ⟨r.consistent_after hs ls1, rfl⟩

theorem mem_entries (s : State) (ls1 : List Lexeme) (l : Lexeme) (ls2 : List Lexeme) :
    (⟨l, r.after s ls1, r.after s (ls1 ++ [l])⟩ : Entry) ∈ r.entries s (ls1 ++ l :: ls2) := by
  rw [entries_append]
  exact List.mem_append_right _ (by simp [entries])

/-! ### Whole texts -/

/-- The trace of a text from the initial state. -/
def course (text : Text) : Trace := r.entries .initial (r.grammar.scanText text)

/-- The state at the end of a text. -/
def stateAfter (text : Text) : State := r.after .initial (r.grammar.scanText text)

theorem consistent_stateAfter (text : Text) : (r.stateAfter text).Consistent :=
  r.consistent_after State.consistent_initial _

@[simp] theorem stateAfter_nil : r.stateAfter [] = .initial := by
  simp [stateAfter, Grammar.scanText, Grammar.scan]

variable {r}

theorem scanText_append (hr : r.OnOneLine) {a : Text} (ha : WholeLines a) (b : Text) :
    r.grammar.scanText (a ++ b) =
      r.grammar.scanText a ++ r.grammar.scan (byteSize a) true b := by
  simpa [Grammar.scanText] using Grammar.scan_append_of_start hr ha b 0

/-- **The course of a text splits at its line starts.** -/
theorem course_append (hr : r.OnOneLine) {a : Text} (ha : WholeLines a) (b : Text) :
    r.course (a ++ b) =
      r.course a ++ r.entries (r.stateAfter a) (r.grammar.scan (byteSize a) true b) := by
  rw [course, scanText_append hr ha, entries_append]
  rfl

theorem stateAfter_append (hr : r.OnOneLine) {a : Text} (ha : WholeLines a) (b : Text) :
    r.stateAfter (a ++ b) = r.after (r.stateAfter a) (r.grammar.scan (byteSize a) true b) := by
  rw [stateAfter, scanText_append hr ha, after_append]
  rfl

/-- The state after lexemes depends on their texts alone. -/
theorem after_congr {s : State} {ls ls' : List Lexeme}
    (h : ls.map Lexeme.text = ls'.map Lexeme.text) : r.after s ls = r.after s ls' := by
  have hfold : ∀ ls : List Lexeme,
      r.after s ls = (ls.map Lexeme.text).foldl (fun s text => r.next text s) s := by
    intro ls
    rw [List.foldl_map]
    rfl
  rw [hfold, hfold, h]

/-- Behind whole lines the state depends on the state there and the text that follows. -/
theorem after_scan_append (hr : r.OnOneLine) {a : Text} (ha : WholeLines a) (s : State) (pos : Nat)
    (b : Text) :
    r.after s (r.grammar.scan pos true (a ++ b)) =
      r.after (r.after s (r.grammar.scanText a)) (r.grammar.scanText b) := by
  have hscan : r.after s (r.grammar.scan pos true a) = r.after s (r.grammar.scanText a) :=
    after_congr (Grammar.map_text_scan _ _ _ _ _)
  rw [Grammar.scan_append_of_start hr ha, after_append, hscan]
  exact after_congr (Grammar.map_text_scan _ _ _ _ _)

/-- **From a line start on, states depend on the state there and on the text that follows.** -/
theorem stateAfter_congr (hr : r.OnOneLine) {a a' : Text} (ha : WholeLines a)
    (ha' : WholeLines a') (h : r.stateAfter a = r.stateAfter a') (b : Text) :
    r.stateAfter (a ++ b) = r.stateAfter (a' ++ b) := by
  rw [stateAfter_append hr ha, stateAfter_append hr ha', h]
  exact after_congr (Grammar.map_text_scan _ _ _ _ _)

/-- The lexemes that stop where others start, or before, are those before them. -/
theorem filter_stop_eq {pos : Nat} {ls1 ls2 : List Lexeme} (h : Consecutive pos (ls1 ++ ls2))
    (hsize : ∀ l ∈ ls2, 0 < l.size) :
    (ls1 ++ ls2).filter (fun l => l.stop ≤ pos + total ls1) = ls1 := by
  obtain ⟨hbefore, hbehind⟩ := consecutive_append.1 h
  have hall : ls1.filter (fun l => l.stop ≤ pos + total ls1) = ls1 :=
    List.filter_eq_self.2 fun l hl => decide_eq_true (hbefore.stop_le hl)
  have hnone : ls2.filter (fun l => l.stop ≤ pos + total ls1) = [] := by
    refine List.filter_eq_nil_iff.2 fun l hl => ?_
    have hstart := hbehind.start_ge hl
    have hpos := hsize l hl
    rw [decide_eq_true_eq, stop]
    omega
  rw [List.filter_append, hall, hnone, List.append_nil]

/-- **The state before an entry** is the one that the lexemes before it lead to. -/
theorem walk_of_mem_course {text : Text} {e : Entry} (h : e ∈ r.course text) :
    r.walk .initial ((r.grammar.scanText text).filter fun l => l.stop ≤ e.lexeme.start) =
      .ok e.before := by
  obtain ⟨ls1, ls2, hls, hbefore, -⟩ := r.exists_of_mem_entries h
  have hconsecutive := Grammar.consecutive_scan r.grammar 0 true text
  rw [← Grammar.scanText, hls] at hconsecutive
  have hsize : ∀ l ∈ e.lexeme :: ls2, 0 < l.size := by
    intro l hl
    have hmem : l ∈ r.grammar.scanText text := by
      rw [hls]
      exact List.mem_append_right _ hl
    exact Grammar.size_pos_of_mem_scan hmem
  obtain ⟨-, hstart, -⟩ := consecutive_append.1 hconsecutive
  rw [hls, hstart, filter_stop_eq hconsecutive hsize, hbefore]
  exact r.walk_eq_after State.consistent_initial ls1

/-- An entry starts behind all that stands before it. -/
theorem start_of_course_eq {text : Text} {before rest : Trace} {e : Entry}
    (h : r.course text = before ++ e :: rest) :
    e.lexeme.start = total (before.map Entry.lexeme) := by
  have hconsecutive := Grammar.consecutive_scan r.grammar 0 true text
  rw [← Grammar.scanText, ← r.map_lexeme_entries .initial (r.grammar.scanText text), ← course, h,
    List.map_append, List.map_cons, consecutive_append] at hconsecutive
  rw [hconsecutive.2.1, Nat.zero_add]

/-! ### Line starts -/

/-- Lexemes that are not empty split at a position in one way only. -/
theorem append_inj_of_total {ls1 ls2 ls1' ls2' : List Lexeme} (h : ls1 ++ ls2 = ls1' ++ ls2')
    (hpos : ∀ l ∈ ls1 ++ ls2, 0 < l.size) (htotal : total ls1 = total ls1') : ls1 = ls1' := by
  have hnil : ∀ ls : List Lexeme, (∀ l ∈ ls, 0 < l.size) → total ls = 0 → ls = [] := by
    intro ls hls hz
    cases ls with
    | nil => rfl
    | cons l ls =>
      have := hls l (by simp)
      rw [total_cons] at hz
      omega
  rcases List.append_eq_append_iff.1 h with ⟨c, rfl, rfl⟩ | ⟨c, rfl, rfl⟩
  · rw [total_append] at htotal
    have hc : c = [] := hnil c (fun l hl => hpos l (by simp [hl])) (by omega)
    simp [hc]
  · rw [total_append] at htotal
    have hc : c = [] := hnil c (fun l hl => hpos l (by simp [hl])) (by omega)
    simp [hc]

/-- The lexemes up to a line start are those of the text up to it. -/
theorem scan_of_endsLine (hr : r.OnOneLine) {pos : Nat} {b : Text} {ls1 ls2 : List Lexeme}
    {l : Lexeme} (h : r.grammar.scan pos true b = ls1 ++ l :: ls2) (hl : l.endsLine = true) :
    ∃ x y, b = x ++ y ∧ x ≠ [] ∧ WholeLines x ∧ r.grammar.scan pos true x = ls1 ++ [l] := by
  have hb := Grammar.flatten_scan r.grammar pos true b
  rw [h, List.map_append, List.flatten_append, List.map_cons, List.flatten_cons] at hb
  have hlast : (ls1.map Lexeme.text).flatten ++ l.text ≠ [] ∧
      ((ls1.map Lexeme.text).flatten ++ l.text).getLast? = some '\n' := by
    have hl' : l.text.getLast? = some '\n' := by simpa [endsLine] using hl
    refine ⟨fun hnil => ?_, by rw [List.getLast?_append, hl']; rfl⟩
    rw [(List.append_eq_nil_iff.1 hnil).2] at hl'
    cases hl'
  have hwhole : WholeLines ((ls1.map Lexeme.text).flatten ++ l.text) :=
    wholeLines_iff.2 (Or.inr hlast.2)
  refine ⟨_, _, (by rw [← hb, List.append_assoc]), hlast.1, hwhole, ?_⟩
  have hscan := Grammar.scan_append_of_start hr hwhole ((ls2.map Lexeme.text).flatten) pos
  rw [List.append_assoc, hb, h, show ls1 ++ l :: ls2 = (ls1 ++ [l]) ++ ls2 by simp] at hscan
  refine (append_inj_of_total hscan (fun l' hl' => ?_) ?_).symm
  · have hmem : l' ∈ r.grammar.scan pos true b := by
      rw [h]
      simpa using hl'
    exact Grammar.size_pos_of_mem_scan hmem
  · rw [Grammar.total_scan, total_append, total_cons, total_nil, byteSize_append]
    rfl

/-- **The line starts of a trace** that begins at a line start are those of its text. -/
theorem mem_lineStarts_iff (hr : r.OnOneLine) {s st : State} {pos p : Nat} {b : Text} :
    (p, st) ∈ (r.entries s (r.grammar.scan pos true b)).lineStarts ↔
      ∃ x y, b = x ++ y ∧ x ≠ [] ∧ WholeLines x ∧ p = pos + byteSize x ∧
        st = r.after s (r.grammar.scan pos true x) := by
  simp only [Trace.lineStarts, List.mem_map, List.mem_filter, Prod.mk.injEq]
  constructor
  · rintro ⟨e, ⟨he, hends⟩, rfl, rfl⟩
    obtain ⟨ls1, ls2, hls, -, hafter⟩ := r.exists_of_mem_entries he
    obtain ⟨x, y, hb, hx, hwhole, hscan⟩ := scan_of_endsLine hr hls hends
    have hconsecutive := Grammar.consecutive_scan r.grammar pos true b
    have htotal : total (ls1 ++ [e.lexeme]) = byteSize x := by rw [← hscan, Grammar.total_scan]
    rw [hls, consecutive_append] at hconsecutive
    rw [total_append, total_cons, total_nil] at htotal
    have hstart := hconsecutive.2.1
    exact ⟨x, y, hb, hx, hwhole, by rw [stop]; omega, by rw [hafter, hscan]⟩
  · rintro ⟨x, y, rfl, hx, hwhole, rfl, rfl⟩
    have hne : r.grammar.scan pos true x ≠ [] := by
      intro hnil
      have := Grammar.flatten_scan r.grammar pos true x
      rw [hnil] at this
      exact hx this.symm
    obtain ⟨ls1, l, hscan⟩ := (List.eq_nil_or_concat _).resolve_left hne
    rw [List.concat_eq_append] at hscan
    have hflat := Grammar.flatten_scan r.grammar pos true x
    have hconsecutive := Grammar.consecutive_scan r.grammar pos true x
    have htotal := Grammar.total_scan r.grammar pos true x
    have hmem : l ∈ r.grammar.scan pos true x := by
      rw [hscan]
      simp
    have hlne : l.text ≠ [] := Grammar.ne_nil_of_mem_scan hmem
    rw [hscan] at hflat hconsecutive htotal
    rw [consecutive_append] at hconsecutive
    rw [total_append, total_cons, total_nil] at htotal
    have hstart := hconsecutive.2.1
    refine ⟨⟨l, r.after s ls1, r.after s (ls1 ++ [l])⟩, ⟨?_, ?_⟩, ?_, by rw [hscan]⟩
    · rw [Grammar.scan_append_of_start hr hwhole y pos, hscan, List.append_assoc]
      exact r.mem_entries s ls1 l _
    · have hlast := hwhole.getLast? hx
      rw [← hflat] at hlast
      simp only [List.map_append, List.map_cons, List.map_nil, List.flatten_append,
        List.flatten_cons, List.flatten_nil, List.append_nil, List.getLast?_append] at hlast
      rw [Option.or_of_isSome (by simpa using hlne)] at hlast
      simp [endsLine, hlast]
    · simp only [stop]
      omega

/-! ### States at line starts -/

/-- **What every newline brings about holds at every line start**, if a separator of versions leaves
it as it is. -/
theorem after_scan_of_wholeLines (hr : r.OnOneLine) {P : State → Prop}
    (hnewline : ∀ s lexeme, s.Consistent → Shape.isNewline lexeme = true → P (r.next lexeme s))
    (hversion : ∀ s lexeme, s.Consistent → P s → lexeme.head? = some 'O' → P (r.next lexeme s))
    {a : Text} (ha : WholeLines a) {pos : Nat} {lineStart : Bool}
    (hstart : a = [] → lineStart = true) {s : State} (hs : s.Consistent)
    (hP : lineStart = true → P s) : P (r.after s (r.grammar.scan pos lineStart a)) := by
  fun_induction Grammar.scan r.grammar pos lineStart a generalizing s with
  | case1 pos lineStart => exact hP (hstart rfl)
  | case2 pos lineStart c cs n lexeme ih =>
    have hwhole : WholeLines ((c :: cs).drop n) :=
      WholeLines.of_append (a := (c :: cs).take n) (by rw [List.take_append_drop]; exact ha)
    refine ih hwhole (fun hnil => ?_) (r.consistent_next hs _) fun hends => ?_
    · have hall : (c :: cs).take n = c :: cs := by
        simpa [hnil] using List.take_append_drop n (c :: cs)
      simp [lexeme, endsLine, hall, ha.getLast?]
    · -- the lexeme is a newline, or starts a line like a separator of versions
      have hlast : ((c :: cs).take n).getLast? = some '\n' := by
        simpa [lexeme, endsLine] using hends
      rcases Grammar.isNewline_or_of_endsLine hr hlast with hisNewline | ⟨htrue, hhead⟩
      · exact hnewline s lexeme.text hs hisNewline
      · exact hversion s lexeme.text hs (hP htrue) hhead

theorem ofQuote?_of_head {lexeme : Text} (h : lexeme.head? = some 'O') :
    Style.ofQuote? lexeme = none := by
  unfold Style.ofQuote?
  split_ifs with h1 h2 h3 h4
  · rw [h1] at h; cases h
  · rw [h2] at h; cases h
  · rw [h3] at h; cases h
  · rw [h4] at h; cases h
  · rfl

/-- At a line start no string is open that ends with its line. -/
theorem not_inLineString_after (hr : r.OnOneLine) {a : Text} (ha : WholeLines a) {pos : Nat}
    {lineStart : Bool} (hstart : a = [] → lineStart = true) {s : State} (hs : s.Consistent)
    (hnot : lineStart = true → ¬ s.InLineString) :
    ¬ (r.after s (r.grammar.scan pos lineStart a)).InLineString :=
  after_scan_of_wholeLines (P := fun s => ¬ s.InLineString) hr
    (fun _ _ hs hnewline => r.not_inLineString_next hs hnewline)
    (fun _ _ hs hnot hhead hopen => hnot (r.inLineString_of_next hs (ofQuote?_of_head hhead) hopen))
    ha hstart hs hnot

theorem not_inLineString_stateAfter (hr : r.OnOneLine) {a : Text} (ha : WholeLines a) :
    ¬ (r.stateAfter a).InLineString :=
  not_inLineString_after hr ha (fun _ => rfl) State.consistent_initial fun _ h => by
    cases h.1

end Registry

end TemplateStyler
