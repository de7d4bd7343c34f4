import TemplateStyler.Proofs.Buffer
import TemplateStyler.Proofs.Fault
import TemplateStyler.Proofs.Styler.Pass
import TemplateStyler.Session

/-!
# Steps of a session

Each act of a session is described once, by what it does to the text, the styles and the styler.

* `Session.Sound`: the styler is exact about the text, no painted state lies behind the text, and
  there is one style for each byte. A new session is sound (`sound_ofText`).
* `Sound.edited`, `Sound.forgetFrom`: an edit that is reported keeps a session sound.
* `Sound.style`: **a pass over a range never fails**, and paints the part of the colours of the
  course that lies in the range.
-/

namespace TemplateStyler

open Text

variable {r : Registry}

/-! ### Stylers told of edits -/

namespace Styler

/-- Checkpoints within the part of the text that stays are exact about the new text. -/
theorem Exact.of_prefix {st st' : Styler} {c d d' : Text} (h : st.Exact r (c ++ d))
    (hregistry : st'.registry = st.registry) (hgrammar : st'.grammar = st.grammar)
    (hmarks : ∀ p s, st'.checkpoints.get? p = some s →
      p ≤ byteSize c ∧ st.checkpoints.get? p = some s) : st'.Exact r (c ++ d') := by
  refine ⟨hregistry.trans h.registry, hgrammar.trans h.grammar, fun p s hget => ?_⟩
  obtain ⟨hle, hget'⟩ := hmarks p s hget
  obtain ⟨hpos, hline, hs⟩ := h.checkpoints p s hget'
  obtain ⟨a, x, rfl, rfl, ha⟩ := hline.exists_prefix hle
  rw [List.append_assoc, Registry.stateAt_append] at hs
  rw [List.append_assoc, Registry.stateAt_append]
  exact ⟨hpos, isLineStart_append.2 ha, hs⟩

theorem get?_checkpoints_below {m : Marks} {pos p : Nat} {s : State}
    (h : (m.below (Size.addCapped pos 1)).get? p = some s) : p ≤ pos ∧ m.get? p = some s := by
  rw [Marks.get?_below] at h
  split at h
  · next hlt =>
    have : Size.addCapped pos 1 ≤ pos + 1 := Nat.min_le_left _ _
    exact ⟨by omega, h⟩
  · cases h

theorem edited_eq_ok_iff {st st' : Styler} {start stop inserted : Nat} :
    st.edited start stop inserted = .ok st' ↔
      ∃ m, st.painted.shift start (max stop start) inserted = .ok m ∧
        st' = { st with
          checkpoints := st.checkpoints.below (Size.addCapped start 1)
          painted := m } := by
  rw [edited, Fault.bind_eq_ok_iff]
  simp [eq_comm]

theorem Exact.edited {st st' : Styler} {before removed after inserted : Text} {stop n : Nat}
    (h : st.Exact r (before ++ removed ++ after))
    (htold : st.edited (byteSize before) stop n = .ok st') :
    st'.Exact r (before ++ inserted ++ after) := by
  obtain ⟨m, -, rfl⟩ := edited_eq_ok_iff.1 htold
  rw [List.append_assoc] at h ⊢
  exact h.of_prefix rfl rfl fun p s hget => get?_checkpoints_below hget

theorem Exact.forgetFrom {st : Styler} {before removed after inserted : Text} {pos : Nat}
    (h : st.Exact r (before ++ removed ++ after)) (hpos : pos ≤ byteSize before) :
    (st.forgetFrom pos).Exact r (before ++ inserted ++ after) := by
  rw [List.append_assoc] at h ⊢
  refine h.of_prefix rfl rfl fun p s hget => ?_
  obtain ⟨hle, hget'⟩ := get?_checkpoints_below hget
  exact ⟨Nat.le_trans hle hpos, hget'⟩

end Styler

/-! ### Sound sessions -/

namespace Session

/-- The styler told to forget all after a position. -/
def forgetFrom (s : Session) (pos : Nat) : Session := { s with styler := s.styler.forgetFrom pos }

/-- The styler is exact about the text, and there is one style for each byte. -/
structure Sound (s : Session) (r : Registry) : Prop where
  exact : s.styler.Exact r s.buffer.text
  within : s.styler.painted.Within s.buffer.size
  buffer : s.buffer.Sound

theorem sound_ofText (r : Registry) (text : Text) : (ofText r text).Sound r :=
  ⟨Styler.exact_ofRegistry r text, Marks.within_empty _, Buffer.sound_ofText text⟩

theorem edit_eq_ok_iff {s s' : Session} {start stop : Nat} {inserted : Text} :
    s.edit start stop inserted = .ok s' ↔
      ∃ b, s.buffer.edit start stop inserted = .ok b ∧ s' = { s with buffer := b } := by
  rw [edit, Fault.bind_eq_ok_iff]
  simp [eq_comm]

theorem edited_eq_ok_iff {s s' : Session} {start stop inserted : Nat} :
    s.edited start stop inserted = .ok s' ↔
      ∃ st, s.styler.edited start stop inserted = .ok st ∧ s' = { s with styler := st } := by
  rw [edited, Fault.bind_eq_ok_iff]
  simp [eq_comm]

theorem style_eq_ok_iff {s s' : Session} {start stop : Nat} {pass : Pass} :
    s.style start stop = .ok (pass, s') ↔
      ∃ st b, s.styler.style s.buffer.text start stop = .ok (pass, st) ∧
        s.buffer.paint pass.start pass.spans = .ok b ∧ s' = ⟨st, b⟩ := by
  simp only [style, Fault.bind_eq_ok_iff]
  constructor
  · rintro ⟨⟨pass', st⟩, hstyle, b, hpaint, heq⟩
    cases heq
    exact ⟨st, b, hstyle, hpaint, rfl⟩
  · rintro ⟨st, b, hstyle, hpaint, rfl⟩
    exact ⟨(pass, st), hstyle, b, hpaint, rfl⟩

/-- What an edit does to a session. -/
theorem exists_of_edit {s s' : Session} {start stop : Nat} {inserted : Text}
    (h : s.edit start stop inserted = .ok s') :
    s'.styler = s.styler ∧ ∃ before removed after,
      s.buffer.text = before ++ removed ++ after ∧
      s'.buffer.text = before ++ inserted ++ after ∧
      byteSize before = start ∧ byteSize (before ++ removed) = stop ∧
      s'.buffer.styles = s.buffer.styles.take start ++
        List.replicate (byteSize inserted) none ++ s.buffer.styles.drop stop := by
  obtain ⟨b, hb, rfl⟩ := edit_eq_ok_iff.1 h
  obtain ⟨before, removed, after, htext, hstart, hstop, rfl⟩ := Buffer.edit_eq_ok_iff.1 hb
  exact ⟨rfl, before, removed, after, htext, rfl, hstart, hstop, rfl⟩

/-- What stands between two positions of a text can be replaced by any text. -/
theorem edit_append {s : Session} {before removed after : Text} (inserted : Text)
    (htext : s.buffer.text = before ++ removed ++ after) :
    s.edit (byteSize before) (byteSize (before ++ removed)) inserted = .ok { s with
      buffer := { s.buffer with
        text := before ++ inserted ++ after
        styles := s.buffer.styles.take (byteSize before) ++
          List.replicate (byteSize inserted) none ++
          s.buffer.styles.drop (byteSize (before ++ removed)) } } :=
  edit_eq_ok_iff.2 ⟨_, Buffer.edit_eq_ok_iff.2 ⟨before, removed, after, htext, rfl, rfl, rfl⟩, rfl⟩

theorem Sound.edit {s s' : Session} (h : s.Sound r) {start stop : Nat} {inserted : Text}
    (hedit : s.edit start stop inserted = .ok s') : s'.buffer.Sound := by
  obtain ⟨b, hb, rfl⟩ := edit_eq_ok_iff.1 hedit
  exact h.buffer.edit hb

/-- The report of an edit never fails while the text has a size. -/
theorem Sound.exists_edited {s s' : Session} (h : s.Sound r) {before removed inserted after : Text}
    (htext : s.buffer.text = before ++ removed ++ after)
    (hfit : byteSize (before ++ inserted ++ after) < Size.bound)
    (hedit : s.edit (byteSize before) (byteSize (before ++ removed)) inserted = .ok s') :
    ∃ s'', s'.edited (byteSize before) (byteSize (before ++ removed)) (byteSize inserted) =
      .ok s'' ∧ s''.buffer = s'.buffer := by
  rw [edit_append inserted htext] at hedit
  cases hedit
  have hwithin := h.within
  rw [Buffer.size, htext] at hwithin
  have hmax : max (byteSize (before ++ removed)) (byteSize before) =
      byteSize (before ++ removed) := by
    rw [byteSize_append]
    omega
  obtain ⟨m, hm⟩ : ∃ m, s.styler.painted.shift (byteSize before)
      (max (byteSize (before ++ removed)) (byteSize before)) (byteSize inserted) = .ok m := by
    rw [hmax]
    simp only [byteSize_append] at hwithin hfit ⊢
    exact Marks.shift_of_within hwithin (by omega) (by omega)
  exact ⟨_, edited_eq_ok_iff.2 ⟨_, Styler.edited_eq_ok_iff.2 ⟨m, hm, rfl⟩, rfl⟩, rfl⟩

/-- An edit that is reported exactly keeps a session sound. -/
theorem Sound.edited {s s' s'' : Session} (h : s.Sound r) {start stop : Nat} {inserted : Text}
    (hedit : s.edit start stop inserted = .ok s')
    (htold : s'.edited start stop (byteSize inserted) = .ok s'') : s''.Sound r := by
  obtain ⟨hstyler, before, removed, after, htext, htext', rfl, rfl, -⟩ := exists_of_edit hedit
  obtain ⟨st, hst, rfl⟩ := edited_eq_ok_iff.1 htold
  have hexact := h.exact
  have hwithin := h.within
  rw [hstyler] at hst
  have hbuffer := h.edit hedit
  rw [htext] at hexact
  rw [Buffer.size, htext] at hwithin
  refine ⟨?_, ?_, hbuffer⟩
  · rw [htext']
    exact hexact.edited hst
  · obtain ⟨m, hm, rfl⟩ := Styler.edited_eq_ok_iff.1 hst
    refine hwithin.shift hm ?_ ?_
    · simp only [Buffer.size, htext', byteSize_append]
      omega
    · simp only [Buffer.size, htext', byteSize_append]
      omega

/-- So does one whose extent is unknown, where all from its start on is forgotten. -/
theorem Sound.forgetFrom {s s' : Session} (h : s.Sound r) {start stop pos : Nat} {inserted : Text}
    (hedit : s.edit start stop inserted = .ok s') (hpos : pos ≤ start) :
    (s'.forgetFrom pos).Sound r := by
  obtain ⟨hstyler, before, removed, after, htext, htext', rfl, rfl, -⟩ := exists_of_edit hedit
  have hexact := h.exact
  have hbuffer := h.edit hedit
  rw [htext] at hexact
  refine ⟨?_, ?_, hbuffer⟩
  · rw [Session.forgetFrom, htext', hstyler]
    exact hexact.forgetFrom hpos
  · refine Marks.Within.below ?_
    simp only [Buffer.size, htext', byteSize_append, Session.forgetFrom]
    omega

/-! ### Passes of a session -/

/-- The two ends of the range that a request is lowered to. -/
def bounds (s : Session) (start stop : Nat) : Nat × Nat :=
  (floorBoundary s.buffer.text (min start (floorBoundary s.buffer.text stop)),
    floorBoundary s.buffer.text stop)

theorem bounds_le (s : Session) (start stop : Nat) :
    (s.bounds start stop).1 ≤ (s.bounds start stop).2 ∧
      (s.bounds start stop).2 ≤ s.buffer.size :=
  ⟨Nat.le_trans (floorBoundary_le _ _) (Nat.min_le_right _ _), floorBoundary_le_byteSize _ _⟩

theorem Sound.passes {s : Session} (hr : r.OnOneLine) (h : s.Sound r) (start stop : Nat) :
    ∃ pass st, s.styler.style s.buffer.text start stop = .ok (pass, st) ∧
      s.styler.Passes r s.buffer.text (s.bounds start stop).1 (s.bounds start stop).2 pass st :=
  h.exact.style hr start stop

/-- What a pass gives, and what it leaves behind. -/
theorem Sound.of_style {s s' : Session} (hr : r.OnOneLine) (h : s.Sound r) {start stop : Nat}
    {pass : Pass} (hstyle : s.style start stop = .ok (pass, s')) :
    s'.Sound r ∧ s'.buffer.text = s.buffer.text ∧
      s.styler.Passes r s.buffer.text (s.bounds start stop).1 (s.bounds start stop).2 pass
        s'.styler := by
  obtain ⟨st, b, hst, hb, rfl⟩ := style_eq_ok_iff.1 hstyle
  obtain ⟨pass', st', heq, hpasses⟩ := h.passes hr start stop
  rw [hst] at heq
  cases heq
  obtain ⟨htext, hlength⟩ := Buffer.paint_same hb
  refine ⟨⟨?_, ?_, ?_⟩, htext, hpasses⟩
  · rw [htext]
    exact hpasses.exact
  · rw [Buffer.size, htext]
    exact hpasses.within h.within
  · rw [Buffer.Sound, Buffer.size, htext, hlength]
    exact h.buffer

/-- The spans of a pass reach up to the end of the range. -/
theorem Sound.stop_of_style {s s' : Session} (hr : r.OnOneLine) (h : s.Sound r) {start stop : Nat}
    {pass : Pass} (hstyle : s.style start stop = .ok (pass, s')) :
    pass.start + Span.total pass.spans = (s.bounds start stop).2 := by
  obtain ⟨-, -, hpasses⟩ := h.of_style hr hstyle
  obtain ⟨hle, hle'⟩ := s.bounds_le start stop
  exact hpasses.stop_eq hle hle'

/-- **A pass over a range never fails** while the text has a size. -/
theorem Sound.style {s : Session} (hr : r.OnOneLine) (h : s.Sound r)
    (hfit : s.buffer.size < Size.bound) (start stop : Nat) :
    ∃ pass s', s.style start stop = .ok (pass, s') ∧
      s'.buffer.styles = s.buffer.styles.take (s.bounds start stop).1 ++
        (r.shownIn s.buffer.text (s.bounds start stop).1 (s.bounds start stop).2).map some ++
        s.buffer.styles.drop (s.bounds start stop).2 := by
  obtain ⟨pass, st, hstyle, hpasses⟩ := h.passes hr start stop
  obtain ⟨hle, hle'⟩ := s.bounds_le start stop
  have hsum := hpasses.stop_eq hle hle'
  have hlength : s.buffer.styles.length = s.buffer.size := h.buffer
  have hpaint : s.buffer.paint pass.start pass.spans = .ok { s.buffer with
      styles := s.buffer.styles.take (s.bounds start stop).1 ++
        (r.shownIn s.buffer.text (s.bounds start stop).1 (s.bounds start stop).2).map some ++
        s.buffer.styles.drop (s.bounds start stop).2
      cursor := (s.bounds start stop).2 } := by
    rw [Buffer.paint_eq (by omega) (by omega), hsum, hpasses.colours_spans, hpasses.start]
  exact ⟨pass, _, style_eq_ok_iff.2 ⟨st, _, hstyle, hpaint, rfl⟩, rfl⟩

end Session

end TemplateStyler
