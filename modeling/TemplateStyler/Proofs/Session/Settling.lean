import TemplateStyler.Proofs.Session.Request

/-!
# Painted states behind an edit

After an edit the painted states behind it belong to the old text, and the styles with them. Passes
from the line of the edit on replace them.

* `Session.Settled`: the buffer shows the colours of its text, and every state painted at a line
  start is the state there. `Session.Complete`: none of these states is missing.
* `Session.Settling`: the painted states while passes go on behind an edit, where `u ++ y` is the
  old text, `x ++ y` the new one and everything up to a position is done. `Session.Shows` says the
  same of the styles.
* `Settled.edited`, `Settled.forgetFrom`: **a settled session is settling after an edit**, from the
  line of the edit on.
* `Settling.pass`: **a pass moves that position on.** `Settling.agree`: where it settles, the states
  of the two texts agree.
-/

namespace TemplateStyler

open Text Lexeme

variable {r : Registry}

namespace Session

/-- What is painted at a line start was painted from the state there. -/
def Painted (s : Session) (r : Registry) : Prop :=
  ∀ p st, IsLineStart s.buffer.text p → p < s.buffer.size →
    s.styler.painted.get? p = some st → st = r.stateAt s.buffer.text p

/-- At every line start the state there is painted. -/
def Complete (s : Session) (r : Registry) : Prop :=
  ∀ p, IsLineStart s.buffer.text p → p < s.buffer.size →
    s.styler.painted.get? p = some (r.stateAt s.buffer.text p)

theorem Complete.painted {s : Session} (h : s.Complete r) : s.Painted r := by
  intro p st hline hlt hget
  rw [h p hline hlt] at hget
  exact (Option.some.inj hget).symm

/-- The buffer shows the colours of its text, painted from the states of its line starts. -/
structure Settled (s : Session) (r : Registry) : Prop where
  sound : s.Sound r
  painted : s.Painted r
  styles : s.buffer.styles = (r.colours s.buffer.text).map some

theorem Settled.full {s : Session} (hr : r.OnOneLine) (h : s.Settled r)
    (hfit : s.buffer.size < Size.bound) : s.Full r :=
  (full_iff hr hfit).2 h.styles

/-- The painted states after `u` was replaced by `x` in front of `y`, where all before a position
was painted anew. -/
structure Settling (s : Session) (r : Registry) (u x y : Text) (pos : Nat) : Prop where
  sound : s.Sound r
  text : s.buffer.text = x ++ y
  boundary : ∃ a b, x ++ y = a ++ b ∧ byteSize a = pos
  /-- What was painted anew, or stands before the edit, belongs to the new text. -/
  done : ∀ p st, IsLineStart (x ++ y) p → p < byteSize (x ++ y) → p < pos ∨ p < byteSize x →
    s.styler.painted.get? p = some st → st = r.stateAt (x ++ y) p
  /-- Nothing is painted at the line starts that were inserted. -/
  gap : ∀ p, pos < p → p < byteSize x → IsLineStart (x ++ y) p → s.styler.painted.get? p = none
  /-- What is left behind the edit belongs to the old text, where a line started there. -/
  kept : ∀ a b st, y = a ++ b → b ≠ [] → WholeLines (u ++ a) → pos ≤ byteSize (x ++ a) →
    s.styler.painted.get? (byteSize (x ++ a)) = some st → st = r.stateAfter (u ++ a)

/-! ### Passes behind an edit -/

theorem Settling.le {s : Session} {u x y : Text} {pos : Nat} (h : s.Settling r u x y pos) :
    pos ≤ byteSize (x ++ y) := by
  obtain ⟨a, b, hab, rfl⟩ := h.boundary
  rw [hab, byteSize_append]
  omega

theorem Settling.length_styles {s : Session} {u x y : Text} {pos : Nat}
    (h : s.Settling r u x y pos) : s.buffer.styles.length = byteSize (x ++ y) := by
  rw [← h.text]
  exact h.sound.buffer

/-- A pass from the position on has it as its first end. -/
theorem Settling.bounds {s : Session} {u x y : Text} {pos : Nat}
    (h : s.Settling r u x y pos) {stop : Nat} (hle : pos ≤ floorBoundary (x ++ y) stop) :
    s.bounds pos stop = (pos, floorBoundary (x ++ y) stop) := by
  obtain ⟨a, b, hab, rfl⟩ := h.boundary
  rw [Session.bounds, h.text, Nat.min_eq_left hle, hab, floorBoundary_append]

/-- **A pass moves the position on.** -/
theorem Settling.pass {s s' : Session} {u x y : Text} {pos : Nat} (hr : r.OnOneLine)
    (h : s.Settling r u x y pos) {stop : Nat} {pass : Pass}
    (hle : pos ≤ floorBoundary (x ++ y) stop) (hstyle : s.style pos stop = .ok (pass, s')) :
    s'.Settling r u x y (floorBoundary (x ++ y) stop) := by
  obtain ⟨hsound, htext, hpasses⟩ := h.sound.of_style hr hstyle
  have hpainted := hpasses.painted
  rw [h.bounds hle, h.text] at hpainted
  simp only at hpainted
  refine ⟨hsound, htext.trans h.text, exists_floorBoundary _ _, ?_, ?_, ?_⟩
  · intro p st hline hsize hor hget
    rw [hpainted] at hget
    split at hget
    · exact (Option.some.inj hget).symm
    · next hout =>
      refine h.done p st hline hsize ?_ hget
      by_contra hnot
      exact hout ⟨hline, by omega, by omega⟩
  · intro p hlt hx hline
    rw [hpainted, if_neg (by omega)]
    exact h.gap p (by omega) hx hline
  · intro a b st hy hb hwhole hpos hget
    rw [hpainted, if_neg (by omega)] at hget
    exact h.kept a b st hy hb hwhole (by omega) hget

/-- **Where a pass settles, the states of the two texts agree.** -/
theorem Settling.agree {s : Session} {u x y : Text} {pos last : Nat}
    (h : s.Settling r u x y pos) (hpos : pos < last) (hlast : last < byteSize (x ++ y))
    (hline : IsLineStart (x ++ y) last) (hcut : last = byteSize x → WholeLines u)
    (hget : s.styler.painted.get? last = some (r.stateAt (x ++ y) last)) :
    ∃ a b, y = a ++ b ∧ last = byteSize (x ++ a) ∧ WholeLines (u ++ a) ∧ WholeLines (x ++ a) ∧
      r.stateAfter (u ++ a) = r.stateAfter (x ++ a) := by
  have hge : byteSize x ≤ last := by
    by_contra hlt
    rw [h.gap last hpos (by omega) hline] at hget
    cases hget
  obtain ⟨v, b, hv, rfl, hwhole⟩ := isLineStart_iff.1 hline
  obtain ⟨a, rfl, hy⟩ := prefix_of_byteSize_le hv hge
  have hu : WholeLines (u ++ a) := by
    by_cases ha : a = []
    · subst ha
      rw [List.append_nil]
      exact hcut (by rw [List.append_nil])
    · exact (wholeLines_append_congr ha).2 hwhole
  have hb : b ≠ [] := by
    rintro rfl
    rw [hv, List.append_nil] at hlast
    omega
  refine ⟨a, b, hy, rfl, hu, hwhole, ?_⟩
  have hold := h.kept a b _ hy hb hu (by omega) hget
  rw [← hold, hv, Registry.stateAt_append]

/-! ### After the edit -/

/-- The painted states after an edit, by what its report keeps of them. -/
theorem Settled.settling {s s' : Session} (h : s.Settled r) (hsound : s'.Sound r)
    {before removed inserted after : Text} (htext : s.buffer.text = before ++ removed ++ after)
    (htext' : s'.buffer.text = before ++ inserted ++ after)
    (hfront : ∀ p st, p < byteSize before → s'.styler.painted.get? p = some st →
      s.styler.painted.get? p = some st)
    (hgap : ∀ p, byteSize before ≤ p → p < byteSize (before ++ inserted) →
      s'.styler.painted.get? p = none)
    (hback : ∀ i st, s'.styler.painted.get? (byteSize (before ++ inserted) + i) = some st →
      s.styler.painted.get? (byteSize (before ++ removed) + i) = some st) :
    s'.Settling r (before ++ removed) (before ++ inserted) after
      (lineStart (before ++ inserted ++ after) (byteSize before)) := by
  obtain ⟨whole, line, hbefore, hwhole, hline, hstart⟩ :=
    exists_lineStart before (inserted ++ after)
  rw [← List.append_assoc] at hstart
  have hle : byteSize whole ≤ byteSize before := by
    rw [hbefore, byteSize_append]
    omega
  rw [hstart]
  refine ⟨hsound, htext', ⟨whole, line ++ inserted ++ after, ?_, rfl⟩, ?_, ?_, ?_⟩
  · rw [hbefore]
    simp only [List.append_assoc]
  · intro p st hp _ hor hget
    by_cases hlt : p < byteSize before
    · rw [List.append_assoc] at hp
      obtain ⟨a, e, rfl, rfl, ha⟩ := hp.exists_prefix (Nat.le_of_lt hlt)
      have hsize : byteSize a < s.buffer.size := by
        rw [Buffer.size, htext, byteSize_append, byteSize_append]
        omega
      have hold := h.painted (byteSize a) st
        (by rw [htext]; simp only [List.append_assoc]; exact isLineStart_append.2 ha) hsize
        (hfront _ st hlt hget)
      rw [htext] at hold
      simpa only [List.append_assoc, Registry.stateAt_append] using hold
    · rw [hgap p (by omega) (by omega)] at hget
      cases hget
  · intro p hlt hx hp
    refine hgap p ?_ hx
    -- on the line of the edit no other line starts
    by_contra hbefore'
    rw [hbefore, List.append_assoc] at hp
    have hstart' := hp.le_of_line hline (by rw [← hbefore]; omega)
    omega
  · intro a b st hy hb hu _ hget
    rw [byteSize_append (before ++ inserted)] at hget
    have hsize : byteSize (before ++ removed ++ a) < s.buffer.size := by
      have := byteSize_pos hb
      rw [Buffer.size, htext, hy]
      simp only [byteSize_append]
      omega
    have hold := h.painted (byteSize (before ++ removed ++ a)) st
      (by rw [htext, hy, ← List.append_assoc]; exact isLineStart_append.2 hu) hsize
      (by rw [byteSize_append (before ++ removed)]; exact hback _ st hget)
    rw [htext, hy, ← List.append_assoc, Registry.stateAt_append] at hold
    exact hold

/-- The painted states after an edit that is reported exactly: those before it stay, and those
behind it move with the text. -/
theorem get?_painted_edited {s s' s'' : Session} {before removed inserted after : Text}
    (htext : s.buffer.text = before ++ removed ++ after)
    (hedit : s.edit (byteSize before) (byteSize (before ++ removed)) inserted = .ok s')
    (htold : s'.edited (byteSize before) (byteSize (before ++ removed)) (byteSize inserted) =
      .ok s'') :
    (∀ p, p < byteSize before → s''.styler.painted.get? p = s.styler.painted.get? p) ∧
      (∀ p, byteSize before ≤ p → p < byteSize (before ++ inserted) →
        s''.styler.painted.get? p = none) ∧
      ∀ i, s''.styler.painted.get? (byteSize (before ++ inserted) + i) =
        s.styler.painted.get? (byteSize (before ++ removed) + i) := by
  rw [edit_append inserted htext] at hedit
  cases hedit
  obtain ⟨st, hst, rfl⟩ := edited_eq_ok_iff.1 htold
  obtain ⟨m, hm, rfl⟩ := Styler.edited_eq_ok_iff.1 hst
  have hget := Marks.get?_shift hm
  have hmax : max (byteSize (before ++ removed)) (byteSize before) =
      byteSize (before ++ removed) := by
    rw [byteSize_append]
    omega
  rw [hmax] at hget
  refine ⟨fun p hp => ?_, fun p hp hp' => ?_, fun i => ?_⟩
  · rw [hget, if_pos hp]
  · rw [byteSize_append] at hp'
    rw [hget, if_neg (by omega), if_neg (by omega)]
  · rw [byteSize_append before inserted, hget, if_neg (by omega), if_pos (by omega),
      Nat.add_sub_cancel_left]

/-- An edit that is reported exactly. -/
theorem Settled.edited {s s' s'' : Session} (h : s.Settled r) {before removed inserted after : Text}
    (htext : s.buffer.text = before ++ removed ++ after)
    (hedit : s.edit (byteSize before) (byteSize (before ++ removed)) inserted = .ok s')
    (htold : s'.edited (byteSize before) (byteSize (before ++ removed)) (byteSize inserted) =
      .ok s'') :
    s''.Settling r (before ++ removed) (before ++ inserted) after
      (lineStart (before ++ inserted ++ after) (byteSize before)) := by
  have hsound := h.sound.edited hedit htold
  obtain ⟨hfront, hgap, hback⟩ := get?_painted_edited htext hedit htold
  have htext'' : s''.buffer.text = before ++ inserted ++ after := by
    rw [edit_append inserted htext] at hedit
    cases hedit
    obtain ⟨st, -, rfl⟩ := edited_eq_ok_iff.1 htold
    rfl
  refine h.settling hsound htext htext'' (fun p st hp hp' => ?_) hgap fun i st hi => ?_
  · rwa [hfront p hp] at hp'
  · rwa [hback] at hi

/-- An edit from whose start on all is forgotten. -/
theorem Settled.forgetFrom {s s' : Session} (h : s.Settled r) {before removed inserted after : Text}
    (htext : s.buffer.text = before ++ removed ++ after)
    (hedit : s.edit (byteSize before) (byteSize (before ++ removed)) inserted = .ok s') :
    (s'.forgetFrom (byteSize before)).Settling r (before ++ removed) (before ++ inserted) after
      (lineStart (before ++ inserted ++ after) (byteSize before)) := by
  have hsound := h.sound.forgetFrom hedit (Nat.le_refl _)
  rw [edit_append inserted htext] at hedit
  cases hedit
  have hget : ∀ p, (s.styler.painted.below (byteSize before)).get? p =
      if p < byteSize before then s.styler.painted.get? p else none :=
    fun p => Marks.get?_below _ _ _
  refine h.settling hsound htext rfl (fun p st hp hp' => ?_) (fun p hp _ => ?_) fun i st hi => ?_
  · exact (if_pos hp).symm.trans ((hget p).symm.trans hp')
  · exact (hget p).trans (if_neg (by omega))
  · have hnone := (hget (byteSize (before ++ inserted) + i)).trans
      (if_neg (by rw [byteSize_append]; omega))
    cases hnone.symm.trans hi

/-! ### What the buffer shows -/

/-- The styles after `u` was replaced by `x` in front of `y`, where all before a position was
painted anew. -/
structure Shows (s : Session) (r : Registry) (u x y : Text) (pos : Nat) : Prop where
  front : s.buffer.styles.take pos = ((r.colours (x ++ y)).take pos).map some
  back : ∀ i, pos ≤ byteSize x + i →
    s.buffer.styles[byteSize x + i]? = ((r.colours (u ++ y)).map some)[byteSize u + i]?

/-- An edit leaves the styles of the lines before it and those behind it. -/
theorem Settled.shows {s s' : Session} (hr : r.OnOneLine) (h : s.Settled r)
    {before removed inserted after : Text} (htext : s.buffer.text = before ++ removed ++ after)
    (hstyles : s'.buffer.styles = s.buffer.styles.take (byteSize before) ++
      List.replicate (byteSize inserted) none ++
      s.buffer.styles.drop (byteSize (before ++ removed))) :
    s'.Shows r (before ++ removed) (before ++ inserted) after
      (lineStart (before ++ inserted ++ after) (byteSize before)) := by
  obtain ⟨whole, line, hbefore, hwhole, -, hstart⟩ := exists_lineStart before (inserted ++ after)
  rw [← List.append_assoc] at hstart
  have hle : byteSize whole ≤ byteSize before := by
    rw [hbefore, byteSize_append]
    omega
  have hlength : s.buffer.styles.length = byteSize (before ++ removed ++ after) := by
    rw [← htext]
    exact h.sound.buffer
  simp only [byteSize_append] at hlength
  have hfront : (s.buffer.styles.take (byteSize before) ++
      List.replicate (byteSize inserted) none).length = byteSize (before ++ inserted) := by
    rw [List.length_append, List.length_take, List.length_replicate, byteSize_append]
    omega
  rw [hstart]
  constructor
  · have htake : s'.buffer.styles.take (byteSize whole) =
        s.buffer.styles.take (byteSize whole) := by
      rw [hstyles, List.append_assoc, List.take_append_of_le_length, List.take_take,
        Nat.min_eq_left hle]
      rw [List.length_take]
      omega
    rw [htake, h.styles, htext, ← List.map_take, hbefore]
    simp only [List.append_assoc]
    rw [Registry.take_colours hr hwhole, Registry.take_colours hr hwhole]
  · intro i _
    rw [hstyles, List.getElem?_append_right (by omega), hfront, Nat.add_sub_cancel_left,
      List.getElem?_drop, h.styles, htext]

/-- A pass to a line start, or to the end of the text, moves the position on. -/
theorem Shows.pass {s s' : Session} (hr : r.OnOneLine) {u x y : Text} {pos last : Nat}
    (h : s.Shows r u x y pos) (hlength : s.buffer.styles.length = byteSize (x ++ y))
    (hle : pos ≤ last) (hlast : IsLineStart (x ++ y) last ∨ last = byteSize (x ++ y))
    (hstyles : s'.buffer.styles = s.buffer.styles.take pos ++
      (r.shownIn (x ++ y) pos last).map some ++ s.buffer.styles.drop last) :
    s'.Shows r u x y last := by
  have hsize : last ≤ byteSize (x ++ y) := by
    rcases hlast with hline | rfl
    · exact hline.le
    · exact Nat.le_refl _
  have hshown := Registry.shownIn_eq hr hlast pos
  have hmiddle := Registry.length_shownIn (r := r) hsize pos
  have hfront : (s.buffer.styles.take pos ++
      (r.shownIn (x ++ y) pos last).map some).length = last := by
    rw [List.length_append, List.length_take, List.length_map, hmiddle]
    omega
  constructor
  · have hcolours : (r.colours (x ++ y)).take pos = ((r.colours (x ++ y)).take last).take pos := by
      rw [List.take_take, Nat.min_eq_left hle]
    rw [hstyles, List.take_left' hfront, h.front, hshown, hcolours, ← List.map_append,
      List.take_append_drop]
  · intro i hi
    rw [hstyles, List.getElem?_append_right (by omega), hfront, List.getElem?_drop,
      show last + (byteSize x + i - last) = byteSize x + i by omega]
    exact h.back i (by omega)

/-- **A pass to a line start, or to the end of the text,** keeps a session settling. It asks for no
other one at the end of the text, and where the state was painted before. -/
theorem Settling.exists_pass {s : Session} (hr : r.OnOneLine) {u x y : Text} {pos last : Nat}
    (h : s.Settling r u x y pos) (hfit : byteSize (x ++ y) < Size.bound) (hle : pos ≤ last)
    (hlast : IsLineStart (x ++ y) last ∨ last = byteSize (x ++ y)) :
    ∃ pass s', s.style pos last = .ok (pass, s') ∧ s'.Settling r u x y last ∧
      s'.buffer.styles = s.buffer.styles.take pos ++
        (r.shownIn (x ++ y) pos last).map some ++ s.buffer.styles.drop last ∧
      pass.restyleFrom =
        if pos < last ∧ last < byteSize (x ++ y) ∧ ¬ (IsLineStart (x ++ y) last ∧
          s.styler.painted.get? last = some (r.stateAt (x ++ y) last))
        then some last else none := by
  have hfloor := floorBoundary_eq_self hlast
  have hle' : pos ≤ floorBoundary (x ++ y) last := by rwa [hfloor]
  have hfit' : s.buffer.size < Size.bound := by rwa [Buffer.size, h.text]
  obtain ⟨pass, s', hstyle, hstyles⟩ := h.sound.style hr hfit' pos last
  obtain ⟨-, -, hpasses⟩ := h.sound.of_style hr hstyle
  have hrestyle := hpasses.restyleFrom
  have hsettling := h.pass hr hle' hstyle
  rw [h.bounds hle', h.text, hfloor] at hstyles hrestyle
  rw [hfloor] at hsettling
  exact ⟨pass, s', hstyle, hsettling, hstyles, hrestyle⟩

end Session

end TemplateStyler
