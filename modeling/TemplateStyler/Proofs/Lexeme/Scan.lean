import TemplateStyler.Lexeme.Scan
import TemplateStyler.Proofs.Lexeme.Line
import TemplateStyler.Proofs.Text.Position
import TemplateStyler.State.Step

/-!
# Scans line by line

The lexemes of a text follow each other without a gap, and a scan can be taken up at every line
start.

* `Lexeme.Consecutive`: each lexeme starts where the one before it stops (`consecutive_scan`).
* `Grammar.scan_append`: **whole lines are scanned on their own**, and what follows them is scanned
  as the text of its own that it is, but for the positions (`map_text_scan`).
* `Grammar.exists_line_of_newline_mem`: a lexeme with a newline is a line to its end.
* `Grammar.lexemes_middle`, `Grammar.lexemes_append`: the lexemes of a part of a text, and those
  from a position on.
-/

namespace TemplateStyler

open Text

/-! ### Consecutive lexemes -/

namespace Lexeme

/-- The lexemes follow each other from a position on. -/
def Consecutive : Nat → List Lexeme → Prop
  | _, [] => True
  | pos, l :: ls => l.start = pos ∧ Consecutive l.stop ls

/-- The number of bytes of several lexemes. -/
def total (ls : List Lexeme) : Nat := byteSize (ls.map Lexeme.text).flatten

@[simp] theorem total_nil : total [] = 0 := rfl

@[simp] theorem total_cons (l : Lexeme) (ls : List Lexeme) :
    total (l :: ls) = l.size + total ls := by
  simp [total, size]

@[simp] theorem total_append (ls ls' : List Lexeme) : total (ls ++ ls') = total ls + total ls' := by
  simp [total]

theorem consecutive_append {pos : Nat} {ls ls' : List Lexeme} :
    Consecutive pos (ls ++ ls') ↔ Consecutive pos ls ∧ Consecutive (pos + total ls) ls' := by
  induction ls generalizing pos with
  | nil => simp [Consecutive]
  | cons l ls ih =>
    simp only [List.cons_append, Consecutive, total_cons]
    rw [ih, and_assoc]
    refine and_congr_right fun hstart => ?_
    rw [stop, hstart, Nat.add_assoc]

theorem Consecutive.start_ge {pos : Nat} {ls : List Lexeme} (h : Consecutive pos ls) {l : Lexeme}
    (hl : l ∈ ls) : pos ≤ l.start := by
  induction ls generalizing pos with
  | nil => simp at hl
  | cons l' ls ih =>
    rcases List.mem_cons.1 hl with rfl | hl
    · exact h.1.ge
    · have h1 := ih h.2 hl
      have h2 := h.1
      rw [stop] at h1
      omega

theorem Consecutive.stop_le {pos : Nat} {ls : List Lexeme} (h : Consecutive pos ls) {l : Lexeme}
    (hl : l ∈ ls) : l.stop ≤ pos + total ls := by
  obtain ⟨before, after, rfl⟩ := List.append_of_mem hl
  rw [consecutive_append] at h
  have := h.2.1
  rw [stop, total_append, total_cons]
  omega

end Lexeme

namespace Grammar

open Lexeme

theorem consecutive_scan (g : Grammar) (pos : Nat) (lineStart : Bool) (cs : List Char) :
    Consecutive pos (g.scan pos lineStart cs) := by
  fun_induction scan g pos lineStart cs with
  | case1 => trivial
  | case2 pos lineStart c cs n lexeme ih => exact ⟨rfl, ih⟩

@[simp] theorem total_scan (g : Grammar) (pos : Nat) (lineStart : Bool) (cs : List Char) :
    total (g.scan pos lineStart cs) = byteSize cs := by
  rw [total, flatten_scan]

theorem size_pos_of_mem_scan {g : Grammar} {pos : Nat} {lineStart : Bool} {cs : List Char}
    {l : Lexeme} (h : l ∈ g.scan pos lineStart cs) : 0 < l.size :=
  byteSize_pos (ne_nil_of_mem_scan h)

/-- The first lexeme of a text, by its extent. -/
theorem scan_of_extent {g : Grammar} {lineStart : Bool} {w cs : List Char} (hne : w ≠ [])
    (hextent : g.extent lineStart (w ++ cs) = w.length) (pos : Nat) :
    g.scan pos lineStart (w ++ cs) =
      ⟨pos, w⟩ :: g.scan (pos + byteSize w) (w.getLast? == some '\n') cs := by
  cases w with
  | nil => exact absurd rfl hne
  | cons c w =>
    rw [List.cons_append] at hextent ⊢
    rw [scan]
    simp only [hextent]
    rw [← List.cons_append, List.take_left, List.drop_left]
    rfl

/-- A single character that is a lexeme and no newline leaves its line open. -/
theorem scan_character {g : Grammar} {lineStart : Bool} {c : Char} {cs : List Char} (hc : c ≠ '\n')
    (hextent : g.extent lineStart (c :: cs) = 1) (pos : Nat) :
    g.scan pos lineStart (c :: cs) = ⟨pos, [c]⟩ :: g.scan (pos + byteSize [c]) false cs := by
  have hscan := scan_of_extent (List.cons_ne_nil c []) hextent pos
  rwa [List.getLast?_singleton, beq_eq_false_iff_ne.2 (by simpa using hc)] at hscan

/-- Positions do not matter to what the lexemes are. -/
theorem map_text_scan (g : Grammar) (pos pos' : Nat) (lineStart : Bool) (cs : List Char) :
    (g.scan pos lineStart cs).map Lexeme.text = (g.scan pos' lineStart cs).map Lexeme.text := by
  fun_induction scan g pos lineStart cs generalizing pos' with
  | case1 => simp [scan]
  | case2 pos lineStart c cs n lexeme ih =>
    rw [scan, List.map_cons, List.map_cons, ih]
    rfl

/-! ### Whole lines -/

variable {r : Registry}

/-- **Whole lines are scanned on their own.** -/
theorem scan_append (hr : r.OnOneLine) {a : List Char} (ha : WholeLines a) (b : List Char)
    (pos : Nat) {lineStart : Bool} (hstart : a = [] → lineStart = true) :
    r.grammar.scan pos lineStart (a ++ b) =
      r.grammar.scan pos lineStart a ++ r.grammar.scan (pos + byteSize a) true b := by
  fun_induction scan r.grammar pos lineStart a with
  | case1 pos lineStart => simp [hstart]
  | case2 pos lineStart c cs n lexeme ih =>
    obtain ⟨line, rest, hsplit, hline, hrest⟩ := ha.exists_line (by simp)
    obtain ⟨hextent, hle⟩ := extent_line hr lineStart hline rest
    obtain ⟨hextent', -⟩ := extent_line hr lineStart hline (rest ++ b)
    have hn : r.grammar.extent lineStart (c :: cs ++ b) = n := by
      rw [hsplit, List.append_assoc, List.cons_append, hextent', ← hextent, ← hsplit]
    have hlen : n ≤ (c :: cs).length := by
      rw [← hsplit] at hle
      rw [hsplit, List.length_append, List.length_cons]
      exact Nat.le_trans hle (by omega)
    have htake : (c :: cs ++ b).take n = (c :: cs).take n := List.take_append_of_le_length hlen
    have hdrop : (c :: cs ++ b).drop n = (c :: cs).drop n ++ b := List.drop_append_of_le_length hlen
    have hwhole : WholeLines ((c :: cs).drop n) :=
      WholeLines.of_append (a := (c :: cs).take n) (by rw [List.take_append_drop]; exact ha)
    have hends : (c :: cs).drop n = [] → lexeme.endsLine = true := by
      intro hnil
      have hall : (c :: cs).take n = c :: cs := by
        simpa [hnil] using List.take_append_drop n (c :: cs)
      have hlast := ha.getLast? (by simp)
      simp [lexeme, endsLine, hall, hlast]
    have hsize : pos + byteSize (c :: cs) = lexeme.stop + byteSize ((c :: cs).drop n) := by
      have := congrArg byteSize (List.take_append_drop n (c :: cs))
      rw [byteSize_append] at this
      simp only [stop, size, lexeme]
      omega
    have hcons : r.grammar.scan pos lineStart (c :: cs ++ b) =
        lexeme :: r.grammar.scan lexeme.stop lexeme.endsLine ((c :: cs).drop n ++ b) := by
      rw [List.cons_append, scan]
      simp only [← List.cons_append, hn, htake, hdrop]
      rfl
    rw [hcons, ih hwhole hends, hsize]
    rfl

/-- Whole lines at the start of a line. -/
theorem scan_append_of_start (hr : r.OnOneLine) {a : List Char} (ha : WholeLines a) (b : List Char)
    (pos : Nat) :
    r.grammar.scan pos true (a ++ b) =
      r.grammar.scan pos true a ++ r.grammar.scan (pos + byteSize a) true b :=
  scan_append hr ha b pos fun _ => rfl

/-- A lexeme with a newline is a line to its end. -/
theorem exists_line_of_newline_mem (hr : r.OnOneLine) {lineStart : Bool} {cs : List Char}
    (h : '\n' ∈ cs.take (r.grammar.extent lineStart cs)) :
    ∃ line rest, cs = line ++ '\n' :: rest ∧ '\n' ∉ line ∧
      r.grammar.extent lineStart cs = (line ++ ['\n']).length := by
  obtain ⟨line, rest, rfl, hline⟩ := List.eq_append_cons_of_mem (List.mem_of_mem_take h)
  have hle := (extent_line hr lineStart hline rest).2
  refine ⟨line, rest, rfl, hline, Nat.le_antisymm (by simpa using hle) ?_⟩
  by_contra hlt
  rw [List.length_append, List.length_singleton, Nat.not_le, Nat.lt_succ_iff] at hlt
  rw [List.take_append_of_le_length hlt] at h
  exact hline (List.mem_of_mem_take h)

/-- A lexeme that ends a line is a newline, or starts the line like a separator of versions. -/
theorem isNewline_or_of_endsLine (hr : r.OnOneLine) {lineStart : Bool} {cs : List Char}
    (h : (cs.take (r.grammar.extent lineStart cs)).getLast? = some '\n') :
    Shape.isNewline (cs.take (r.grammar.extent lineStart cs)) = true ∨
      (lineStart = true ∧ (cs.take (r.grammar.extent lineStart cs)).head? = some 'O') := by
  obtain ⟨line, rest, rfl, hline, hn⟩ := exists_line_of_newline_mem hr (List.mem_of_getLast? h)
  have htake : (line ++ '\n' :: rest).take (line ++ ['\n']).length = line ++ ['\n'] := by
    rw [List.length_append, List.take_length_add_append]
    rfl
  rw [hn, htake]
  rcases lexeme_with_newline hr hline (by rw [hn]; simp) with rfl | rfl | ⟨hstart, hhead⟩
  · exact Or.inl rfl
  · exact Or.inl rfl
  · exact Or.inr ⟨hstart, by rw [List.head?_append, hhead]; rfl⟩

/-! ### Lexemes of a part of a text -/

/-- The lexemes of a part of a text are those of a scan that sees what stands before the part only
as far as the start of the line, and nothing of what stands behind it. -/
theorem lexemes_middle (g : Grammar) (a b c : Text) {start stop : Nat}
    (hstop : min stop (byteSize (a ++ (b ++ c))) = byteSize (a ++ b))
    (hstart : min start (byteSize (a ++ b)) = byteSize a) :
    g.lexemes (a ++ (b ++ c)) start stop =
      .ok (g.scan (byteSize a) (a.getLast?.all (· == '\n')) b) := by
  have hseen : cut (a ++ (b ++ c)) (byteSize (a ++ b)) = .ok (a ++ b, c) := by
    rw [← List.append_assoc, cut, cut?_append]
  have hpart : cut (a ++ b) (byteSize a) = .ok (a, b) := by rw [cut, cut?_append]
  rw [lexemes, hstop, hstart, hseen]
  by_cases hb : b = []
  · subst hb
    simp [scan, bind, Except.bind, pure, Except.pure]
  · have hne : byteSize a ≠ byteSize (a ++ b) := by
      have := byteSize_pos hb
      rw [byteSize_append]
      omega
    simp only [bind, Except.bind, if_neg hne, hpart, pure, Except.pure]

/-- The lexemes of a text from a position to its end. -/
theorem lexemes_append (g : Grammar) (a b : List Char) :
    g.lexemes (a ++ b) (byteSize a) (byteSize (a ++ b)) =
      .ok (g.scan (byteSize a) (a.getLast?.all (· == '\n')) b) := by
  have hstop : min (byteSize (a ++ b)) (byteSize (a ++ (b ++ []))) = byteSize (a ++ b) := by
    rw [List.append_nil, Nat.min_self]
  have hstart : min (byteSize a) (byteSize (a ++ b)) = byteSize a := by
    rw [byteSize_append]
    omega
  have hmiddle := g.lexemes_middle a b [] hstop hstart
  rwa [List.append_nil] at hmiddle

/-- The lexemes of a text from a line start on. -/
theorem lexemes_wholeLines (g : Grammar) {a : List Char} (ha : WholeLines a) (b : List Char) :
    g.lexemes (a ++ b) (byteSize a) (byteSize (a ++ b)) = .ok (g.scan (byteSize a) true b) := by
  rw [lexemes_append]
  unfold WholeLines at ha
  rw [ha]

end Grammar

end TemplateStyler
