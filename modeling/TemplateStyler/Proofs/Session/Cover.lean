import Mathlib.Order.Bounds.Basic
import TemplateStyler.Proofs.Session.Request

/-!
# What a request covers

A request in any session, for any two numbers, is answered: its range is lowered to positions of the
text, its spans fill the range, and the buffer is painted there and nowhere else.

* `isGreatest_floorBoundary`: a number is lowered to the last position at or before it.
* `Trace.length_pos_of_mem_spans`: no span is empty.
* `style_covers`: **a request covers its range, paints only it, and never fails.**
-/

namespace TemplateStyler

open Text

/-! ### The ends of the range -/

namespace Text

theorem floorBoundary_mono (cs : List Char) {m n : Nat} (h : m ≤ n) :
    floorBoundary cs m ≤ floorBoundary cs n := by
  unfold floorBoundary
  induction cs generalizing m n with
  | nil => exact Nat.le_refl _
  | cons c cs ih =>
    by_cases hm : c.utf8Size ≤ m
    · rw [upTo, if_pos hm, upTo, if_pos (Nat.le_trans hm h), byteSize_cons, byteSize_cons]
      exact Nat.add_le_add_left (ih (Nat.sub_le_sub_right h _)) _
    · rw [upTo, if_neg hm]
      exact Nat.zero_le _

/-- A number is lowered to the last position at or before it. -/
theorem isGreatest_floorBoundary (cs : List Char) (n : Nat) :
    IsGreatest {pos | isBoundary cs pos = true ∧ pos ≤ n} (floorBoundary cs n) := by
  refine ⟨⟨isBoundary_floorBoundary cs n, floorBoundary_le cs n⟩, ?_⟩
  rintro pos ⟨hpos, hle⟩
  rw [← floorBoundary_of_isBoundary hpos]
  exact floorBoundary_mono cs hle

end Text

/-! ### Spans -/

theorem Span.getElem?_colours {before after : List Span} {span : Span} {i : Nat}
    (hle : Span.total before ≤ i) (hlt : i < Span.total before + span.length) :
    (Span.colours (before ++ span :: after))[i]? = some span.style := by
  have hsplit : Span.colours (before ++ span :: after) =
      Span.colours before ++ (List.replicate span.length span.style ++ Span.colours after) := by
    simp only [Span.colours, List.flatMap_append, List.flatMap_cons]
  rw [hsplit, List.getElem?_append_right (by rw [Span.length_colours]; exact hle),
    Span.length_colours, List.getElem?_append_left (by rw [List.length_replicate]; omega),
    List.getElem?_replicate, if_pos (by omega)]

theorem Entry.length_pos_of_mem_clip {start stop : Nat} {e : Entry} {span : Span}
    (h : span ∈ e.clip start stop) : 0 < span.length := by
  rw [Trace.clip_eq] at h
  split at h
  · rw [List.mem_singleton.1 h]
    simp only
    omega
  · exact absurd h List.not_mem_nil

/-- No span of a range is empty. -/
theorem Trace.length_pos_of_mem_spans {start stop : Nat} {t : Trace} {span : Span}
    (h : span ∈ t.spans start stop) : 0 < span.length := by
  rw [spans_eq] at h
  induction t with
  | nil => exact absurd h List.not_mem_nil
  | cons e rest ih =>
    rcases List.mem_append.1 h with h | h
    · obtain ⟨clipped, hclipped, rfl⟩ := List.mem_map.1 h
      exact (Entry.length_pos_of_mem_clip hclipped : 0 < clipped.length)
    · exact ih h

namespace Session

variable {r : Registry}

/-- **A request covers its range, paints only it, and never fails**, whatever was edited and painted
before, and whatever the two numbers are. -/
theorem style_covers (hr : r.OnOneLine) {s : Session} (hs : Reachable r s)
    (hfit : s.buffer.size < Size.bound) (start stop : Nat) :
    ∃ (first last : Nat) (pass : Pass) (s' : Session),
      IsGreatest {pos | isBoundary s.buffer.text pos = true ∧ pos ≤ stop} last ∧
      IsGreatest {pos | isBoundary s.buffer.text pos = true ∧ pos ≤ min start last} first ∧
      s.style start stop = .ok (pass, s') ∧ pass.start = first ∧
      (∀ span ∈ pass.spans, 0 < span.length) ∧ Span.total pass.spans = last - first ∧
      s'.buffer.text = s.buffer.text ∧
      (∀ before span after, pass.spans = before ++ span :: after →
        ∀ pos, first + Span.total before ≤ pos → pos < first + Span.total before + span.length →
          s'.buffer.styleAt pos = some span.style) ∧
      ∀ pos, pos < first ∨ last ≤ pos → s'.buffer.styleAt pos = s.buffer.styleAt pos := by
  have hsound := hs.sound hr
  obtain ⟨hle, hle'⟩ := s.bounds_le start stop
  obtain ⟨pass, s', hstyle, hstyles⟩ := hsound.style hr hfit start stop
  obtain ⟨-, htext, hpasses⟩ := hsound.of_style hr hstyle
  have hstop := hpasses.stop_eq hle hle'
  rw [hpasses.start] at hstop
  rw [← hpasses.colours_spans] at hstyles
  have hlength : s.buffer.styles.length = s.buffer.size := hsound.buffer
  have hfront : (s.buffer.styles.take (s.bounds start stop).1).length =
      (s.bounds start stop).1 := by
    rw [List.length_take]
    omega
  have hpainted : ((s.buffer.styles.take (s.bounds start stop).1) ++
      (Span.colours pass.spans).map some).length = (s.bounds start stop).2 := by
    rw [List.length_append, hfront, List.length_map, Span.length_colours]
    exact hstop
  refine ⟨(s.bounds start stop).1, (s.bounds start stop).2, pass, s',
    isGreatest_floorBoundary _ _, isGreatest_floorBoundary _ _, hstyle, hpasses.start, ?_, by omega,
    htext, ?_, ?_⟩
  · rw [hpasses.spans]
    exact fun span => Trace.length_pos_of_mem_spans
  · intro before span after hspans pos hfirst hlast
    have htotal : Span.total before + span.length ≤ Span.total pass.spans := by
      rw [hspans, ← Span.length_colours, ← Span.length_colours]
      simp [Span.colours]
    rw [styleAt_painted hstyles hfront (by omega) (by rw [Span.length_colours]; omega), hspans]
    exact Span.getElem?_colours (by omega) (by omega)
  · rintro pos (hbefore | hbehind)
    · rw [Buffer.styleAt, Buffer.styleAt, hstyles, List.append_assoc,
        List.getElem?_append_left (by omega), List.getElem?_take_of_lt hbefore]
    · rw [Buffer.styleAt, Buffer.styleAt, hstyles, List.getElem?_append_right (by omega), hpainted,
        List.getElem?_drop, show (s.bounds start stop).2 + (pos - (s.bounds start stop).2) = pos by
          omega]

/-- A request from within a character to far behind the text, after an edit. -/
theorem style_covers_within_character :
    ∃ (s s' : Session) (pass : Pass), Registry.OnOneLine {} ∧ Reachable {} s ∧
      s.buffer.text = "....\né='é'\n".toList ∧ s.buffer.size < Size.bound ∧
      s.style 10 Size.max = .ok (pass, s') ∧ pass.start = 9 ∧ Span.total pass.spans = 4 ∧
      (∀ span ∈ pass.spans, 0 < span.length) ∧ s'.buffer.text = s.buffer.text ∧
      s'.buffer.styleAt 6 = none ∧ s'.buffer.styleAt 8 = some .singleQuoteString := by
  have hr : Registry.OnOneLine {} := ⟨by decide, by decide⟩
  have hrun : (do
      let start ← (ofText {} "....\nx='é'\n".toList).style 0 12
      let s ← start.2.edit 5 6 "é".toList
      let s ← s.edited 5 6 2
      return (s.buffer.text, s.buffer.styleAt 6, s.buffer.styleAt 8) :
        Except Fault (Text × Option Style × Option Style)).toOption =
      some ("....\né='é'\n".toList, none, some .singleQuoteString) := by
    decide +kernel
  obtain ⟨⟨_, s0⟩, hstyle, s1, hedit, s, htold, heq⟩ := by
    simpa only [Fault.bind_eq_ok_iff] using Fault.eq_ok_of_toOption hrun
  obtain ⟨htext, hshown⟩ := Prod.mk.inj (Except.ok.inj heq)
  obtain ⟨hunpainted, hquote⟩ := Prod.mk.inj hshown
  have hreachable : Reachable {} s := .edited (.styled (.ofText _) hstyle) hedit htold
  have hfit : s.buffer.size < Size.bound := by rw [Buffer.size, htext]; decide
  obtain ⟨first, last, pass, s', hlast, hfirst, hstyle', hstart, hpos, htotal, hsame, -, hkept⟩ :=
    style_covers hr hreachable hfit 10 Size.max
  have hlast' : last = 13 := by
    rw [hlast.unique (isGreatest_floorBoundary _ _), htext]
    decide
  have hfirst' : first = 9 := by
    rw [hfirst.unique (isGreatest_floorBoundary _ _), htext, hlast']
    decide
  subst hlast' hfirst'
  exact ⟨s, s', pass, hr, hreachable, htext, hfit, hstyle', hstart, htotal, hpos, hsame,
    (hkept 6 (Or.inl (by decide))).trans hunpainted, (hkept 8 (Or.inl (by decide))).trans hquote⟩

end Session

end TemplateStyler
