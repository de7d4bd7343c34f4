import TemplateStyler.Proofs.Session.Settle

/-!
# Sessions that are kept painted

A pass that asks for no other one tells that the text behind it is painted right. It can be trusted
if it is conclusive: it reaches the end of the text, or it is not empty and what was painted at its
end was painted from a line start.

* `Session.Conclusive`: the passes after an edit that can be trusted.
* `Session.Restyled`: passes one after the other, until none is asked for.
* `Session.Kept`: sessions that were styled as a whole and painted after every edit until a trusted
  pass asked for no more.
* `Kept.settled`: **if the trusted passes are conclusive, these sessions are settled.**
-/

namespace TemplateStyler

open Text

variable {r : Registry}

namespace Session

/-- A pass between two positions after an edit which replaced the text of `old` before `stop`, so
that the rest of it now stands behind `behind`. -/
def Conclusive (old : Text) (stop : Nat) (new : Text) (behind first last : Nat) : Prop :=
  last = byteSize new ∨ first < last ∧ (last = behind → IsLineStart old stop)

/-- Any pass between two positions after an edit. -/
def AnyPass (_old : Text) (_stop : Nat) (_new : Text) (_behind _first _last : Nat) : Prop := True

/-- Passes one after the other from a position on, each from where the one before it asked to go on,
until one asks for no more. It is the last pass, and the position at which it ends, that count. -/
inductive Restyled : Session → Nat → Pass → Nat → Session → Prop
  | last {s s' : Session} {pos stop : Nat} {pass : Pass}
      (hstyle : s.style pos stop = .ok (pass, s')) (hnone : pass.restyleFrom = none) :
      Restyled s pos pass (s.bounds pos stop).2 s'
  | next {s s' s'' : Session} {pos stop next end' : Nat} {pass pass' : Pass}
      (hstyle : s.style pos stop = .ok (pass, s')) (hsome : pass.restyleFrom = some next)
      (h : Restyled s' next pass' end' s'') : Restyled s pos pass' end' s''

/-- The sessions that were styled as a whole, and painted after every edit since until a trusted
pass asked for no more and the buffer showed its text as styled from scratch. Between the edits
there may be passes of their own. -/
inductive Kept (r : Registry) (trusted : Text → Nat → Text → Nat → Nat → Nat → Prop) :
    Session → Prop
  | styled {s s' : Session} {pass : Pass} (h : Reachable r s) (hfit : s.buffer.size < Size.bound)
      (hstyle : s.style 0 s.buffer.size = .ok (pass, s')) : Kept r trusted s'
  | passed {s s' : Session} {start stop : Nat} {pass : Pass} (h : Kept r trusted s)
      (hstyle : s.style start stop = .ok (pass, s')) (hfull : s'.Full r) : Kept r trusted s'
  | edited {s s₁ s₂ s₃ : Session} {start stop end' : Nat} {inserted : Text} {pass : Pass}
      (h : Kept r trusted s) (hedit : s.edit start stop inserted = .ok s₁)
      (htold : s₁.edited start stop (byteSize inserted) = .ok s₂)
      (hfit : s₂.buffer.size < Size.bound)
      (hpasses : Restyled s₂ (lineStart s₂.buffer.text start) pass end' s₃)
      (htrusted : trusted s.buffer.text stop s₂.buffer.text (start + byteSize inserted)
        pass.start end')
      (hfull : s₃.Full r) : Kept r trusted s₃

/-! ### Passes after an edit -/

/-- A pass that is not empty begins where it was asked to. -/
theorem Settling.le_of_lt {s : Session} {u x y : Text} {pos stop : Nat}
    (h : s.Settling r u x y pos) (hlt : (s.bounds pos stop).1 < (s.bounds pos stop).2) :
    pos ≤ floorBoundary (x ++ y) stop := by
  rw [Session.bounds, h.text] at hlt
  simp only at hlt
  by_contra hgt
  obtain ⟨a, b, hab, hsize⟩ := exists_floorBoundary (x ++ y) stop
  rw [Nat.min_eq_right (by omega), ← hsize, hab, floorBoundary_append] at hlt
  omega

/-- **Where a pass that is not empty asks for no more within the text, the states of the two texts
agree.** -/
theorem Settling.agree_of_none {s : Session} {u x y : Text} {pos last : Nat} {next : Option Nat}
    (h : s.Settling r u x y pos) (hlt : pos < last) (hsize : last ≠ byteSize (x ++ y))
    (hle : last ≤ byteSize (x ++ y)) (hcut : last = byteSize x → IsLineStart (u ++ y) (byteSize u))
    (hnone : next = none)
    (hnext : next =
      if pos < last ∧ last < byteSize (x ++ y) ∧ ¬ (IsLineStart (x ++ y) last ∧
        s.styler.painted.get? last = some (r.stateAt (x ++ y) last)) then some last else none) :
    ∃ a b, y = a ++ b ∧ last = byteSize (x ++ a) ∧ WholeLines (u ++ a) ∧ WholeLines (x ++ a) ∧
      r.stateAfter (u ++ a) = r.stateAfter (x ++ a) := by
  have hlast : last < byteSize (x ++ y) := by omega
  have hmatched : IsLineStart (x ++ y) last ∧
      s.styler.painted.get? last = some (r.stateAt (x ++ y) last) := by
    by_contra hnot
    rw [hnone, if_pos ⟨hlt, hlast, hnot⟩] at hnext
    cases hnext
  exact h.agree hlt hlast hmatched.1 (fun heq => isLineStart_append.1 (hcut heq)) hmatched.2

/-- **After a conclusive pass that asks for no more, what is painted is right.** -/
theorem Settling.painted_of_last {s s' : Session} (hr : r.OnOneLine) {u x y : Text} {pos stop : Nat}
    {pass : Pass} (h : s.Settling r u x y pos) (hstyle : s.style pos stop = .ok (pass, s'))
    (hnone : pass.restyleFrom = none)
    (hconclusive : Conclusive (u ++ y) (byteSize u) (x ++ y) (byteSize x) pass.start
      (s.bounds pos stop).2) : s'.Painted r := by
  obtain ⟨-, -, hpasses⟩ := h.sound.of_style hr hstyle
  rw [hpasses.start] at hconclusive
  have hend : (s.bounds pos stop).2 = floorBoundary (x ++ y) stop := by rw [Session.bounds, h.text]
  have hle : pos ≤ floorBoundary (x ++ y) stop := by
    rcases hconclusive with hsize | ⟨hlt, -⟩
    · rw [← hend, hsize]
      exact h.le
    · exact h.le_of_lt hlt
  have hsettling := h.pass hr hle hstyle
  have hrestyle := hpasses.restyleFrom
  rw [h.bounds hle] at hconclusive hrestyle
  rw [h.text] at hrestyle
  simp only at hconclusive hrestyle
  generalize floorBoundary (x ++ y) stop = last at *
  by_cases hsize : last = byteSize (x ++ y)
  · exact hsettling.painted_of_end hsize
  · obtain ⟨hlt, hcut⟩ := hconclusive.resolve_left hsize
    obtain ⟨a, b, rfl, rfl, hu, hx, hagree⟩ :=
      h.agree_of_none hlt hsize hsettling.le hcut hnone hrestyle
    exact hsettling.painted_of_agree hr hu hx hagree

theorem Restyled.painted {s s' : Session} (hr : r.OnOneLine) {u x y : Text} {pos end' : Nat}
    {pass : Pass} (h : Restyled s pos pass end' s') (hs : s.Settling r u x y pos)
    (hconclusive : Conclusive (u ++ y) (byteSize u) (x ++ y) (byteSize x) pass.start end') :
    s'.Sound r ∧ s'.buffer.text = x ++ y ∧ s'.Painted r := by
  induction h with
  | last hstyle hnone =>
    obtain ⟨hsound, htext, -⟩ := hs.sound.of_style hr hstyle
    exact ⟨hsound, htext.trans hs.text, hs.painted_of_last hr hstyle hnone hconclusive⟩
  | next hstyle hsome _ ih =>
    obtain ⟨-, -, hpasses⟩ := hs.sound.of_style hr hstyle
    have hrestyle := hpasses.restyleFrom
    rw [hsome] at hrestyle
    split at hrestyle
    · next hcond =>
      have hle := hs.le_of_lt hcond.1
      rw [hs.bounds hle] at hrestyle
      cases hrestyle
      exact ih (hs.pass hr hle hstyle) hconclusive
    · cases hrestyle

/-- **The sessions that were kept painted are settled.** -/
theorem Kept.settled (hr : r.OnOneLine) {s : Session} (h : Kept r Conclusive s) :
    s.Settled r ∧ s.buffer.size < Size.bound := by
  induction h with
  | styled h hfit hstyle =>
    obtain ⟨-, htext, -⟩ := (h.sound hr).of_style hr hstyle
    refine ⟨(h.sound hr).settled_of_all hr hfit hstyle, ?_⟩
    rw [Buffer.size, htext]
    exact hfit
  | passed _ hstyle hfull ih =>
    obtain ⟨hsettled, hfit⟩ := ih
    obtain ⟨hsound, htext, -⟩ := hsettled.sound.of_style hr hstyle
    rw [Buffer.size, ← htext] at hfit
    exact ⟨⟨hsound, hsettled.painted.style hr hsettled.sound hstyle, (full_iff hr hfit).1 hfull⟩,
      hfit⟩
  | edited _ hedit htold hfit hpasses hconclusive hfull ih =>
    obtain ⟨hsettled, -⟩ := ih
    obtain ⟨-, before, removed, after, htext, -, rfl, rfl, -⟩ := exists_of_edit hedit
    have hsettling := hsettled.edited htext hedit htold
    rw [← byteSize_append, htext, hsettling.text] at hconclusive
    rw [hsettling.text] at hpasses
    obtain ⟨hsound, htext', hpainted⟩ := hpasses.painted hr hsettling hconclusive
    have hfit' := hfit
    rw [Buffer.size, hsettling.text, ← htext'] at hfit'
    exact ⟨⟨hsound, hpainted, (full_iff hr hfit').1 hfull⟩, hfit'⟩

end Session

end TemplateStyler
