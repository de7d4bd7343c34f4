import Mathlib.Data.List.Basic
import TemplateStyler.Buffer
import TemplateStyler.Proofs.Fault
import TemplateStyler.Proofs.Styler.Colours
import TemplateStyler.Proofs.Text.Position

/-!
# Buffers as lists of styles

What is done to a buffer is said about its text as a whole and about its list of styles.

* `Buffer.Sound`: there is one style for each byte.
* `edit_eq_ok_iff`: an edit replaces a part of the text, and the styles with it.
* `setStyling_eq_ok_iff`: painting goes from the cursor as far as the text does, and fails behind
  it.
* `paint_eq`: **painting spans replaces a stretch of the styles by their colours**; the text and the
  styles around the stretch stay.
-/

namespace TemplateStyler.Buffer

open Text

/-- There is one style for each byte. -/
def Sound (b : Buffer) : Prop := b.styles.length = b.size

theorem sound_ofText (text : Text) : (ofText text).Sound := by
  rw [Sound, size, ofText, List.length_replicate]

/-! ### Edits -/

/-- An edit replaces a part of the text that begins and ends at positions of it. -/
theorem edit_eq_ok_iff {b b' : Buffer} {start stop : Nat} {inserted : Text} :
    b.edit start stop inserted = .ok b' ↔
      ∃ before removed after, b.text = before ++ removed ++ after ∧ byteSize before = start ∧
        byteSize (before ++ removed) = stop ∧
        b' = { b with
          text := before ++ inserted ++ after
          styles := b.styles.take start ++ List.replicate (byteSize inserted) none
            ++ b.styles.drop stop } := by
  constructor
  · intro h
    unfold edit at h
    split at h
    · cases h
    · simp only [Fault.bind_eq_ok_iff, cut_eq_ok_iff] at h
      obtain ⟨⟨upTo, after⟩, ⟨htext, hstop⟩, ⟨before, removed⟩, ⟨hupTo, hstart⟩, heq⟩ := h
      cases heq
      exact ⟨before, removed, after, by rw [htext, hupTo], hstart, by rw [← hupTo, hstop], rfl⟩
  · rintro ⟨before, removed, after, htext, rfl, rfl, rfl⟩
    have hle : ¬ byteSize (before ++ removed) < byteSize before := by
      rw [byteSize_append]
      omega
    simp only [edit, if_neg hle, cut, htext, cut?_append, bind, Except.bind, pure, Except.pure]

theorem Sound.edit {b b' : Buffer} (hb : b.Sound) {start stop : Nat} {inserted : Text}
    (h : b.edit start stop inserted = .ok b') : b'.Sound := by
  obtain ⟨before, removed, after, htext, rfl, rfl, rfl⟩ := edit_eq_ok_iff.1 h
  rw [Sound, size, htext] at hb
  simp only [byteSize_append] at hb
  simp only [Sound, size, List.length_append, List.length_take, List.length_replicate,
    List.length_drop, byteSize_append]
  omega

/-! ### Painting -/

/-- Painting from a cursor in the text goes as far as the text does. Behind the text nothing can be
painted. -/
theorem setStyling_eq_ok_iff {b b' : Buffer} {n : Nat} {style : Style} :
    b.setStyling n style = .ok b' ↔
      b.cursor + n < Size.bound ∧ b.cursor ≤ b.styles.length ∧
        b' = { b with
          styles := b.styles.take b.cursor ++
            List.replicate (min (b.cursor + n) b.styles.length - b.cursor) (some style) ++
            b.styles.drop (min (b.cursor + n) b.styles.length)
          cursor := min (b.cursor + n) b.styles.length } := by
  rw [setStyling, Fault.bind_eq_ok_iff]
  constructor
  · rintro ⟨sum, hsum, h⟩
    obtain ⟨hfit, rfl⟩ := Size.add_eq_ok.1 hsum
    simp only at h
    split at h
    · cases h
    · next hle =>
      cases h
      exact ⟨hfit, by omega, rfl⟩
  · rintro ⟨hfit, hle, rfl⟩
    have hstop : ¬ min (b.cursor + n) b.styles.length < b.cursor := by omega
    refine ⟨b.cursor + n, Size.add_eq_ok.2 ⟨hfit, rfl⟩, ?_⟩
    simp only [if_neg hstop]
    rfl

theorem setStyling_eq {b : Buffer} {n : Nat} (style : Style)
    (h : b.cursor + n ≤ b.styles.length) (hfit : b.styles.length < Size.bound) :
    b.setStyling n style = .ok { b with
      styles := b.styles.take b.cursor ++ List.replicate n (some style) ++
        b.styles.drop (b.cursor + n)
      cursor := b.cursor + n } :=
  setStyling_eq_ok_iff.2 ⟨by omega, by omega, by
    rw [Nat.min_eq_left h, Nat.add_sub_cancel_left]⟩

/-- Painting touches neither the text nor the number of styles. -/
theorem setStyling_same {b b' : Buffer} {n : Nat} {style : Style}
    (h : b.setStyling n style = .ok b') :
    b'.text = b.text ∧ b'.styles.length = b.styles.length := by
  obtain ⟨-, hle, rfl⟩ := setStyling_eq_ok_iff.1 h
  simp only [List.length_append, List.length_take, List.length_replicate, List.length_drop,
    true_and]
  omega

theorem paint_same {b b' : Buffer} {start : Nat} {spans : List Span}
    (h : b.paint start spans = .ok b') :
    b'.text = b.text ∧ b'.styles.length = b.styles.length := by
  have hfold : ∀ (spans : List Span) (b : Buffer),
      spans.foldlM (fun b span => b.setStyling span.length span.style) b = .ok b' →
        b'.text = b.text ∧ b'.styles.length = b.styles.length := by
    intro spans
    induction spans with
    | nil =>
      intro b hb
      cases hb
      exact ⟨rfl, rfl⟩
    | cons span spans ih =>
      intro b hb
      rw [List.foldlM_cons, Fault.bind_eq_ok_iff] at hb
      obtain ⟨b1, hset, hrest⟩ := hb
      obtain ⟨htext, hlength⟩ := setStyling_same hset
      rw [← htext, ← hlength]
      exact ih b1 hrest
  exact hfold spans (b.startStyling start) h

theorem foldlM_setStyling {b : Buffer} {spans : List Span}
    (h : b.cursor + Span.total spans ≤ b.styles.length) (hfit : b.styles.length < Size.bound) :
    spans.foldlM (fun b span => b.setStyling span.length span.style) b = .ok { b with
      styles := b.styles.take b.cursor ++ (Span.colours spans).map some ++
        b.styles.drop (b.cursor + Span.total spans)
      cursor := b.cursor + Span.total spans } := by
  induction spans generalizing b with
  | nil => simp [Span.total, Span.colours]
  | cons span spans ih =>
    rw [Span.total] at h ⊢
    rw [List.foldlM_cons, setStyling_eq span.style (by omega) hfit]
    have hlength : (b.styles.take b.cursor ++ List.replicate span.length (some span.style) ++
        b.styles.drop (b.cursor + span.length)).length = b.styles.length := by
      simp only [List.length_append, List.length_take, List.length_replicate, List.length_drop]
      omega
    have hfront : (b.styles.take b.cursor ++
        List.replicate span.length (some span.style)).length = b.cursor + span.length := by
      simp only [List.length_append, List.length_take, List.length_replicate]
      omega
    refine (ih (by simp only [hlength]; omega) (by simp only [hlength]; exact hfit)).trans ?_
    have htake : (b.styles.take b.cursor ++ List.replicate span.length (some span.style) ++
        b.styles.drop (b.cursor + span.length)).take (b.cursor + span.length) =
        b.styles.take b.cursor ++ List.replicate span.length (some span.style) :=
      List.take_left' hfront
    have hdrop : (b.styles.take b.cursor ++ List.replicate span.length (some span.style) ++
        b.styles.drop (b.cursor + span.length)).drop
          (b.cursor + span.length + Span.total spans) =
        b.styles.drop (b.cursor + span.length + Span.total spans) := by
      rw [← List.drop_drop, List.drop_left' hfront, List.drop_drop]
    have hcolours : (Span.colours (span :: spans)).map some =
        List.replicate span.length (some span.style) ++ (Span.colours spans).map some := by
      simp [Span.colours]
    simp only [htake, hdrop, hcolours]
    simp only [List.append_assoc, Nat.add_assoc]

/-- **Painting spans replaces a stretch of the styles by their colours.** -/
theorem paint_eq {b : Buffer} {start : Nat} {spans : List Span}
    (h : start + Span.total spans ≤ b.styles.length) (hfit : b.styles.length < Size.bound) :
    b.paint start spans = .ok { b with
      styles := b.styles.take start ++ (Span.colours spans).map some ++
        b.styles.drop (start + Span.total spans)
      cursor := start + Span.total spans } := by
  have hcursor : (b.startStyling start).cursor = start := by
    simp only [startStyling]
    omega
  have hend : (b.startStyling start).cursor + Span.total spans ≤
      (b.startStyling start).styles.length := by
    rw [hcursor]
    exact h
  have hpaint := foldlM_setStyling hend hfit
  rw [hcursor] at hpaint
  exact hpaint

end TemplateStyler.Buffer
