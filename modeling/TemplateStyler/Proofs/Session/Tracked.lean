import TemplateStyler.Proofs.Session.Settle

/-!
# Painted states that move with the text

After an edit that is reported with its range the states that were painted behind it move with the
text. If none was missing before, every line start behind the edit still has the state that the old
text had there, until a pass paints it anew.

* `Session.Tracked`: the painted states while passes go on behind an edit, where `u ++ y` is the old
  text and `x ++ y` the new one; none is missing.
* `Complete.tracked`: **a complete session is tracked after an edit,** from the line of the edit on.
* `Tracked.pass`: **a pass moves that position on.** `Tracked.complete_of_end`,
  `Tracked.complete_of_agree`: at the end of the text, and where the states of the two texts agree,
  the session is complete again.
-/

namespace TemplateStyler

open Text Lexeme

variable {r : Registry}

namespace Session

/-- The painted states after `u` was replaced by `x` in front of `y`, where all before a position
was painted anew. -/
structure Tracked (s : Session) (r : Registry) (u x y : Text) (pos : Nat) : Prop where
  front : ∀ p, IsLineStart (x ++ y) p → p < pos →
    s.styler.painted.get? p = some (r.stateAt (x ++ y) p)
  /-- Behind the edit every line start keeps the state of the old text. -/
  back : ∀ a b, y = a ++ b → a ≠ [] → b ≠ [] → WholeLines a → pos ≤ byteSize (x ++ a) →
    s.styler.painted.get? (byteSize (x ++ a)) = some (r.stateAfter (u ++ a))

/-- A line start behind what was inserted is one of the text behind the edit. -/
theorem exists_behind {x y : Text} {p : Nat} (hline : IsLineStart (x ++ y) p)
    (hx : byteSize x < p) (hsize : p < byteSize (x ++ y)) :
    ∃ a b, y = a ++ b ∧ a ≠ [] ∧ b ≠ [] ∧ WholeLines a ∧ p = byteSize (x ++ a) := by
  obtain ⟨v, b, hv, rfl, hwhole⟩ := isLineStart_iff.1 hline
  obtain ⟨a, rfl, rfl⟩ := prefix_of_byteSize_le hv (Nat.le_of_lt hx)
  refine ⟨a, b, rfl, ?_, ?_, hwhole.of_append, rfl⟩
  · rintro rfl
    rw [List.append_nil] at hx
    omega
  · rintro rfl
    rw [hv, List.append_nil] at hsize
    omega

/-- **After an edit of a complete session no state is missing.** -/
theorem Complete.tracked {s s' s'' : Session} (h : s.Complete r)
    {before removed inserted after : Text} (htext : s.buffer.text = before ++ removed ++ after)
    (hedit : s.edit (byteSize before) (byteSize (before ++ removed)) inserted = .ok s')
    (htold : s'.edited (byteSize before) (byteSize (before ++ removed)) (byteSize inserted) =
      .ok s'') :
    s''.Tracked r (before ++ removed) (before ++ inserted) after
      (lineStart (before ++ inserted ++ after) (byteSize before)) := by
  obtain ⟨hfront, -, hback⟩ := get?_painted_edited htext hedit htold
  obtain ⟨whole, line, hbefore, hwhole, -, hstart⟩ := exists_lineStart before (inserted ++ after)
  rw [← List.append_assoc] at hstart
  have hle : byteSize whole ≤ byteSize before := by
    rw [hbefore, byteSize_append]
    omega
  have hold : ∀ a b, s.buffer.text = a ++ b → b ≠ [] → WholeLines a →
      s.styler.painted.get? (byteSize a) = some (r.stateAfter a) := by
    intro a b hab hb ha
    have hsize : byteSize a < s.buffer.size := by
      have := byteSize_pos hb
      rw [Buffer.size, hab, byteSize_append]
      omega
    rw [h _ (by rw [hab]; exact isLineStart_append.2 ha) hsize, hab, Registry.stateAt_append]
  rw [hstart]
  constructor
  · intro p hp hlt
    rw [List.append_assoc] at hp
    obtain ⟨a, e, rfl, rfl, ha⟩ := hp.exists_prefix (Nat.le_of_lt (Nat.lt_of_lt_of_le hlt hle))
    have he : e ++ (removed ++ after) ≠ [] := by
      intro hnil
      rw [(List.append_eq_nil_iff.1 hnil).1, List.append_nil] at hle
      omega
    rw [hfront _ (by omega), hold a _ (by rw [htext]; simp only [List.append_assoc]) he ha]
    simp only [List.append_assoc, Registry.stateAt_append]
  · intro a b hy ha hb hwhole' _
    rw [byteSize_append (before ++ inserted), hback, ← byteSize_append,
      hold _ b (by rw [htext, hy, ← List.append_assoc]) hb (hwhole'.prepend ha _)]

/-- **A pass moves the position on.** -/
theorem Tracked.pass {s s' : Session} (hr : r.OnOneLine) {u x y : Text} {pos last : Nat}
    (h : s.Tracked r u x y pos) (hs : s.Settling r u x y pos) (hle : pos ≤ last)
    (hlast : IsLineStart (x ++ y) last ∨ last = byteSize (x ++ y)) {pass : Pass}
    (hstyle : s.style pos last = .ok (pass, s')) : s'.Tracked r u x y last := by
  obtain ⟨-, -, hpasses⟩ := hs.sound.of_style hr hstyle
  have hfloor := floorBoundary_eq_self hlast
  have hpainted := hpasses.painted
  rw [hs.bounds (by rw [hfloor]; exact hle), hs.text, hfloor] at hpainted
  simp only at hpainted
  constructor
  · intro p hline hlt
    by_cases hp : pos ≤ p
    · rw [hpainted, if_pos ⟨hline, hp, hlt⟩]
    · rw [hpainted, if_neg (by omega)]
      exact h.front p hline (by omega)
  · intro a b hy ha hb hwhole hpos
    rw [hpainted, if_neg (by omega)]
    exact h.back a b hy ha hb hwhole (by omega)

theorem Tracked.complete_of_end {s : Session} {u x y : Text} {pos : Nat}
    (h : s.Tracked r u x y pos) (htext : s.buffer.text = x ++ y) (hpos : pos = byteSize (x ++ y)) :
    s.Complete r := by
  intro p hline hlt
  rw [Buffer.size] at hlt
  rw [htext] at hline hlt ⊢
  exact h.front p hline (by omega)

/-- **Where the states agree,** what was kept from the old text is right for the new one. -/
theorem Tracked.complete_of_agree {s : Session} (hr : r.OnOneLine) {u x a b : Text} (ha : a ≠ [])
    (hwhole : WholeLines a) (h : s.Tracked r u x (a ++ b) (byteSize (x ++ a)))
    (htext : s.buffer.text = x ++ (a ++ b))
    (hagree : r.stateAfter (u ++ a) = r.stateAfter (x ++ a)) : s.Complete r := by
  intro p hline hlt
  rw [Buffer.size] at hlt
  rw [htext] at hline hlt ⊢
  by_cases hdone : p < byteSize (x ++ a)
  · exact h.front p hline hdone
  · have hbehind : byteSize x < p := by
      have := byteSize_pos ha
      rw [byteSize_append] at hdone
      omega
    obtain ⟨c, w, hc, hcne, hw, hcwhole, rfl⟩ := exists_behind hline hbehind hlt
    -- from the agreement on the old states go on like the new ones
    obtain ⟨d, rfl, rfl⟩ := prefix_of_byteSize_le hc (by
      simp only [byteSize_append] at hdone
      omega)
    rw [h.back _ w hc hcne hw hcwhole (by omega), hc, ← List.append_assoc x,
      Registry.stateAt_append, ← List.append_assoc u, ← List.append_assoc x,
      Registry.stateAfter_congr hr (hwhole.prepend ha u) (hwhole.prepend ha x) hagree]

end Session

end TemplateStyler
