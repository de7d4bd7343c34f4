import TemplateStyler.Proofs.Session.Reachable
import TemplateStyler.Proofs.Styler.Literal

/-!
# One request of a session

What a pass over a range gives does not depend on the history of the session, but on its present
text alone.

* `Session.Full`: the buffer shows what styling its text from scratch shows.
* `Trace.CutOffBehind`: a byte of a literal that is cut off by a newline at or behind the end of the
  range.
* `style_of_reachable`: **a pass shows every byte of its range as in the whole text styled from
  scratch**, but for the bytes of such a literal, which it shows in the style of their quote. The
  state after it is the state after the lexemes that start before the end.
-/

namespace TemplateStyler

open Text Lexeme

variable {r : Registry}

/-- A byte of a literal with the given opening quote that is cut off at or behind a position. -/
def Trace.CutOffBehind (t : Trace) (stop pos : Nat) (opening : Entry) : Prop :=
  ∃ newline, t.CutOff opening newline ∧ opening.lexeme.start ≤ pos ∧
    pos < newline.lexeme.start ∧ stop ≤ newline.lexeme.start

namespace Registry

theorem getElem?_shownIn (text : Text) {first last pos : Nat} (hfirst : first ≤ pos)
    (hlast : pos < last) :
    (r.shownIn text first last)[pos - first]? = (r.head text last).colours[pos]? := by
  rw [shownIn, List.getElem?_drop, show first + (pos - first) = pos by omega,
    List.getElem?_take_of_lt hlast]

end Registry

namespace Session

/-- The buffer shows its text as styled from scratch. -/
def Full (s : Session) (r : Registry) : Prop :=
  ∃ whole, (ofText r s.buffer.text).style 0 s.buffer.size = .ok whole ∧
    s.buffer.styles = whole.2.buffer.styles

instance (s : Session) (r : Registry) : Decidable (s.Full r) :=
  match h : (ofText r s.buffer.text).style 0 s.buffer.size with
  | .ok whole => decidable_of_iff (s.buffer.styles = whole.2.buffer.styles) (by simp [Full, h])
  | .error _ => isFalse (by simp [Full, h])

theorem bounds_all (s : Session) : s.bounds 0 s.buffer.size = (0, s.buffer.size) := by
  have hlast : floorBoundary s.buffer.text s.buffer.size = s.buffer.size :=
    floorBoundary_of_byteSize_le (Nat.le_refl _)
  have hfirst : floorBoundary s.buffer.text (min 0 s.buffer.size) = 0 := by
    have := floorBoundary_le s.buffer.text (min 0 s.buffer.size)
    omega
  rw [bounds, hlast, hfirst]

theorem styleAt_of_styles {b : Buffer} {styles : List Style} (hb : b.styles = styles.map some)
    (pos : Nat) : b.styleAt pos = styles[pos]? := by
  rw [Buffer.styleAt, hb, List.getElem?_map]
  cases styles[pos]? <;> rfl

/-- The style of a byte of a stretch that was painted over. -/
theorem styleAt_painted {b : Buffer} {front back : List (Option Style)} {styles : List Style}
    {first pos : Nat} (hb : b.styles = front ++ styles.map some ++ back)
    (hfront : front.length = first) (hfirst : first ≤ pos) (hlast : pos < first + styles.length) :
    b.styleAt pos = styles[pos - first]? := by
  rw [Buffer.styleAt, hb, List.append_assoc, List.getElem?_append_right (by omega), hfront,
    List.getElem?_append_left (by rw [List.length_map]; omega), List.getElem?_map]
  cases styles[pos - first]? <;> rfl

/-- **A text styled from scratch carries its colours.** -/
theorem Sound.style_all {s : Session} (hr : r.OnOneLine) (h : s.Sound r)
    (hfit : s.buffer.size < Size.bound) :
    ∃ pass s', s.style 0 s.buffer.size = .ok (pass, s') ∧
      s'.buffer.styles = (r.colours s.buffer.text).map some := by
  obtain ⟨pass, s', hstyle, hstyles⟩ := h.style hr hfit 0 s.buffer.size
  have hlength : s.buffer.styles.length = s.buffer.size := h.buffer
  have hshown : r.shownIn s.buffer.text 0 s.buffer.size = r.colours s.buffer.text := by
    rw [Buffer.size, Registry.shownIn_eq hr (Or.inr rfl), List.drop_zero, List.take_of_length_le]
    rw [Registry.length_colours]
  refine ⟨pass, s', hstyle, ?_⟩
  rw [hstyles, bounds_all]
  simp only [hshown, List.take_zero, List.nil_append]
  rw [List.drop_of_length_le (by omega), List.append_nil]

theorem full_iff (hr : r.OnOneLine) {s : Session} (hfit : s.buffer.size < Size.bound) :
    s.Full r ↔ s.buffer.styles = (r.colours s.buffer.text).map some := by
  obtain ⟨pass, s', hstyle, hstyles⟩ := (sound_ofText r s.buffer.text).style_all hr hfit
  constructor
  · rintro ⟨whole, hwhole, heq⟩
    have hsame := hwhole.symm.trans hstyle
    cases hsame
    exact heq.trans hstyles
  · intro heq
    exact ⟨(pass, s'), hstyle, heq.trans hstyles.symm⟩

/-- **What one request means, in any session.** -/
theorem style_of_reachable (hr : r.OnOneLine) {s : Session} (hs : Reachable r s)
    (hfit : s.buffer.size < Size.bound) (start stop : Nat) :
    ∃ (pass : Pass) (s' : Session) (whole : Pass × Session) (t : Trace) (cold : Pass × Styler),
      s.style start stop = .ok (pass, s') ∧
      (ofText r s.buffer.text).style 0 s.buffer.size = .ok whole ∧
      r.trace .initial (r.grammar.scanText s.buffer.text) = .ok t ∧
      (Styler.ofRegistry r).style s.buffer.text start stop = .ok cold ∧
      (∀ pos, (s.bounds start stop).1 ≤ pos → pos < (s.bounds start stop).2 →
        (∀ opening, t.CutOffBehind (s.bounds start stop).2 pos opening →
          s'.buffer.styleAt pos = Style.ofQuote? opening.lexeme.text) ∧
        ((∀ opening, ¬ t.CutOffBehind (s.bounds start stop).2 pos opening) →
          s'.buffer.styleAt pos = whole.2.buffer.styleAt pos)) ∧
      r.walk .initial ((r.grammar.scanText s.buffer.text).filter
        fun l => l.start < (s.bounds start stop).2) = .ok pass.endState ∧
      pass.spans = cold.1.spans ∧ pass.endState = cold.1.endState := by
  have hsound := hs.sound hr
  obtain ⟨hle, hle'⟩ := s.bounds_le start stop
  obtain ⟨pass, s', hstyle, hstyles⟩ := hsound.style hr hfit start stop
  obtain ⟨-, -, hpasses⟩ := hsound.of_style hr hstyle
  obtain ⟨wholePass, whole, hwhole, hcolours⟩ :=
    (sound_ofText r s.buffer.text).style_all hr hfit
  obtain ⟨cold, st, hcold, hpasses'⟩ :=
    (Styler.exact_ofRegistry r s.buffer.text).style hr start stop
  have hlength : s.buffer.styles.length = s.buffer.size := hsound.buffer
  refine ⟨pass, s', (wholePass, whole), r.course s.buffer.text, (cold, st), hstyle, hwhole,
    r.trace_eq_entries State.consistent_initial _, hcold, fun pos hfirst hlast => ?_, ?_, ?_, ?_⟩
  · have hshown : s'.buffer.styleAt pos =
        (r.head s.buffer.text (s.bounds start stop).2).colours[pos]? := by
      rw [← Registry.getElem?_shownIn _ hfirst hlast]
      refine styleAt_painted hstyles ?_ hfirst ?_
      · rw [List.length_take]
        omega
      · rw [Registry.length_shownIn hle']
        omega
    constructor
    · rintro opening ⟨newline, hcut, hopening, -, hnewline⟩
      rw [hshown]
      exact Registry.getElem?_head_of_cutOff hcut hopening hlast hnewline hle'
    · intro hnone
      rw [hshown, Registry.getElem?_head_of_not_cutOff hlast hle' ?_]
      · exact (styleAt_of_styles hcolours pos).symm
      · intro opening newline hcut hopening hnewline
        by_contra hge
        exact hnone opening ⟨newline, hcut, hopening, hnewline, by omega⟩
  · rw [hpasses.endState, Registry.head, Registry.endState_entries]
    exact r.walk_eq_after State.consistent_initial _
  · rw [hpasses.spans, hpasses'.spans]
    rfl
  · rw [hpasses.endState, hpasses'.endState]
    rfl

/-- A request that ends within a literal which its line cuts off. -/
theorem style_of_reachable_cut_off :
    ∃ (s s' : Session) (pass : Pass) (whole : Pass × Session), Registry.OnOneLine {} ∧
      Reachable {} s ∧ s.buffer.size < Size.bound ∧ s.style 6 9 = .ok (pass, s') ∧
      (ofText {} s.buffer.text).style 0 s.buffer.size = .ok whole ∧
      s'.buffer.styleAt 8 = some .singleQuoteString ∧
      whole.2.buffer.styleAt 8 = some .unclosedString ∧
      Registry.walk {} .initial ((Registry.grammar {}).scanText s.buffer.text |>.filter
        fun l => l.start < 9) = .ok pass.endState := by
  have hr : Registry.OnOneLine {} := ⟨by decide, by decide⟩
  have hrun : (do
      let start ← (ofText {} "....\nx='ab\ny\n".toList).style 0 12
      let s ← start.2.edit 8 9 "cd".toList
      let s ← s.edited 8 9 2
      let part ← s.style 6 9
      let whole ← (ofText {} s.buffer.text).style 0 s.buffer.size
      return (s.buffer.text, part.2.buffer.styleAt 8, whole.2.buffer.styleAt 8) :
        Except Fault (Text × Option Style × Option Style)).toOption =
      some ("....\nx='cdb\ny\n".toList, some .singleQuoteString, some .unclosedString) := by
    decide +kernel
  obtain ⟨⟨_, s0⟩, hstyle, s1, hedit, s, htold, ⟨pass, s'⟩, hstyle', ⟨p, whole⟩, hwhole, heq⟩ := by
    simpa only [Fault.bind_eq_ok_iff] using Fault.eq_ok_of_toOption hrun
  obtain ⟨htext, hshown⟩ := Prod.mk.inj (Except.ok.inj heq)
  obtain ⟨hhere, hthere⟩ := Prod.mk.inj hshown
  have hreachable : Reachable {} s := .edited (.styled (.ofText _) hstyle) hedit htold
  have hfit : s.buffer.size < Size.bound := by rw [Buffer.size, htext]; decide
  obtain ⟨pass', s'', whole', t, cold, hstyle'', -, -, -, -, hwalk, -⟩ :=
    style_of_reachable hr hreachable hfit 6 9
  rw [hstyle'] at hstyle''
  cases hstyle''
  have hbounds : (s.bounds 6 9).2 = 9 := by
    rw [bounds, htext]
    decide
  rw [hbounds] at hwalk
  exact ⟨s, s', pass, (p, whole), hr, hreachable, hfit, hstyle', hwhole, hhere, hthere, hwalk⟩

end Session

end TemplateStyler
