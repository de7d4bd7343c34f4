import TemplateStyler.Proofs.Session.Settling

/-!
# Settling after an edit

Passes go on behind an edit until one ends at a line start that was painted from the state it has
now: from there on old and new text are shown alike.

* `Settling.settled_of_end`, `Settling.settled_of_agree`: a session is settled when its text was
  painted to the end, or to a line start where the states of the two texts agree.
* `Session.Advances`: a pass is the last one, or asks for the one that follows. If every pass is
  so, the passes end (`settle_of_advances`).
* `Settling.advances`: **one pass leaves the session settled, or asks for the pass that follows.**
* `Settling.settle`: **the passes end, and leave the session settled.**
-/

namespace TemplateStyler

open Text Lexeme

variable {r : Registry}

namespace Session

/-- A pass keeps what is painted right. -/
theorem Painted.style {s s' : Session} (hr : r.OnOneLine) (hs : s.Sound r) (h : s.Painted r)
    {start stop : Nat} {pass : Pass} (hstyle : s.style start stop = .ok (pass, s')) :
    s'.Painted r := by
  obtain ⟨-, htext, hpasses⟩ := hs.of_style hr hstyle
  intro p st hline hlt hget
  rw [Buffer.size] at hlt
  rw [htext] at hline hlt ⊢
  rw [hpasses.painted] at hget
  split at hget
  · exact (Option.some.inj hget).symm
  · exact h p st hline hlt hget

/-- A session that was styled as a whole has its state painted at every line start. -/
theorem Sound.complete_of_all {s s' : Session} (hr : r.OnOneLine) (hs : s.Sound r) {pass : Pass}
    (hstyle : s.style 0 s.buffer.size = .ok (pass, s')) : s'.Complete r := by
  obtain ⟨-, htext, hpasses⟩ := hs.of_style hr hstyle
  intro p hline hlt
  rw [Buffer.size] at hlt
  rw [htext] at hline hlt ⊢
  rw [hpasses.painted, bounds_all, if_pos ⟨hline, Nat.zero_le _, hlt⟩]

/-- **A session that was styled as a whole is settled.** -/
theorem Sound.settled_of_all {s s' : Session} (hr : r.OnOneLine) (hs : s.Sound r)
    (hfit : s.buffer.size < Size.bound) {pass : Pass}
    (hstyle : s.style 0 s.buffer.size = .ok (pass, s')) : s'.Settled r := by
  obtain ⟨hsound, htext, -⟩ := hs.of_style hr hstyle
  obtain ⟨pass', s'', hstyle', hstyles⟩ := hs.style_all hr hfit
  rw [hstyle] at hstyle'
  cases hstyle'
  exact ⟨hsound, (hs.complete_of_all hr hstyle).painted, by rw [htext, hstyles]⟩

/-! ### The end -/

theorem Settling.painted_of_end {s : Session} {u x y : Text} {pos : Nat}
    (h : s.Settling r u x y pos) (hpos : pos = byteSize (x ++ y)) : s.Painted r := by
  subst hpos
  intro p st hline hlt hget
  rw [Buffer.size] at hlt
  rw [h.text] at hline hlt ⊢
  exact h.done p st hline hlt (Or.inl hlt) hget

/-- A settling session whose text was painted to the end is settled. -/
theorem Settling.settled_of_end {s : Session} {u x y : Text} {pos : Nat}
    (h : s.Settling r u x y pos) (hshows : s.Shows r u x y pos) (hpos : pos = byteSize (x ++ y)) :
    s.Settled r := by
  refine ⟨h.sound, h.painted_of_end hpos, ?_⟩
  have hlength := h.length_styles
  have hfront := hshows.front
  rw [List.take_of_length_le (by omega), List.take_of_length_le] at hfront
  · rw [hfront, h.text]
  · rw [Registry.length_colours, hpos]

/-- **Where the states agree, the painted states behind the edit are those of the new text.** -/
theorem Settling.painted_of_agree {s : Session} (hr : r.OnOneLine) {u x a b : Text}
    (h : s.Settling r u x (a ++ b) (byteSize (x ++ a))) (hu : WholeLines (u ++ a))
    (hx : WholeLines (x ++ a)) (hagree : r.stateAfter (u ++ a) = r.stateAfter (x ++ a)) :
    s.Painted r := by
  intro p st hline hlt hget
  rw [Buffer.size] at hlt
  rw [h.text] at hline hlt ⊢
  by_cases hdone : p < byteSize (x ++ a)
  · exact h.done p st hline hlt (Or.inl hdone) hget
  · obtain ⟨v, w, hv, rfl, hwhole⟩ := isLineStart_iff.1 hline
    rw [← List.append_assoc] at hv
    obtain ⟨c, rfl, rfl⟩ := prefix_of_byteSize_le hv (by omega)
    have hw : w ≠ [] := by
      rintro rfl
      rw [List.append_nil, ← List.append_assoc] at hlt
      omega
    have hold := h.kept (a ++ c) w st (by simp) hw
      (by rw [← List.append_assoc]; exact hu.append hwhole.of_append)
      (by simp only [byteSize_append]; omega) (by rw [← List.append_assoc]; exact hget)
    rw [hold, ← List.append_assoc, Registry.stateAfter_congr hr hu hx hagree c,
      ← r.stateAt_append (x ++ a ++ c) w]
    simp only [List.append_assoc]

/-- **Where the states agree, the styles behind the edit are those of the new text.** -/
theorem styles_of_agree {s : Session} (hr : r.OnOneLine) {u x a b : Text} {pos : Nat}
    (hback : ∀ i, pos ≤ byteSize x + i →
      s.buffer.styles[byteSize x + i]? = ((r.colours (u ++ (a ++ b))).map some)[byteSize u + i]?)
    (hpos : pos ≤ byteSize (x ++ a)) (hu : WholeLines (u ++ a)) (hx : WholeLines (x ++ a))
    (hagree : r.stateAfter (u ++ a) = r.stateAfter (x ++ a)) :
    s.buffer.styles.drop (byteSize (x ++ a)) =
      ((r.colours (x ++ (a ++ b))).drop (byteSize (x ++ a))).map some := by
  have hold := Registry.drop_colours hr hu b
  rw [List.append_assoc] at hold
  have hnew := Registry.drop_colours hr hx b
  rw [List.append_assoc] at hnew
  rw [hnew, ← hagree, ← hold, List.map_drop]
  refine List.ext_getElem? fun i => ?_
  rw [List.getElem?_drop, List.getElem?_drop, byteSize_append, byteSize_append, Nat.add_assoc,
    Nat.add_assoc]
  exact hback _ (by rw [byteSize_append] at hpos; omega)

/-- A settling session whose states agree at the position is settled. -/
theorem Settling.settled_of_agree {s : Session} (hr : r.OnOneLine) {u x a b : Text}
    (h : s.Settling r u x (a ++ b) (byteSize (x ++ a)))
    (hshows : s.Shows r u x (a ++ b) (byteSize (x ++ a))) (hu : WholeLines (u ++ a))
    (hx : WholeLines (x ++ a)) (hagree : r.stateAfter (u ++ a) = r.stateAfter (x ++ a)) :
    s.Settled r := by
  refine ⟨h.sound, h.painted_of_agree hr hu hx hagree, ?_⟩
  have hdrop := styles_of_agree hr hshows.back (Nat.le_refl _) hu hx hagree
  have htake := hshows.front
  rw [← List.take_append_drop (byteSize (x ++ a)) s.buffer.styles, htake, hdrop,
    ← List.map_append, List.take_append_drop, h.text]

/-! ### Passes until none is asked for -/

/-- A pass is the last one, or asks for the one that follows. -/
def Advances (going : Session → Nat → Prop) (done : Session → Pass → Prop) (s : Session)
    (start stop : Nat) : Prop :=
  ∃ pass s', s.style start stop = .ok (pass, s') ∧ s'.buffer.text = s.buffer.text ∧
    (pass.restyleFrom = none ∧ done s' pass ∨
      pass.restyleFrom = some stop ∧ start < stop ∧ stop < s.buffer.size ∧ going s' stop)

theorem settleFrom_eq {s s' : Session} {pos : Nat} {pass : Pass}
    (hstyle : s.style pos (nextLineStart s.buffer.text pos) = .ok (pass, s')) :
    Session.settleFrom s.buffer.text s.styler s.buffer pos =
      match pass.restyleFrom with
      | some next =>
        if pos < next ∧ next < byteSize s.buffer.text then do
          let (passes, s'') ← Session.settleFrom s.buffer.text s'.styler s'.buffer next
          return (pass :: passes, s'')
        else return ([pass], s')
      | none => return ([pass], s') := by
  obtain ⟨st, b, hst, hb, rfl⟩ := style_eq_ok_iff.1 hstyle
  rw [Session.settleFrom]
  cases hrestyle : pass.restyleFrom with
  | none => simp only [hst, Fault.ok_bind, hb, hrestyle]
  | some next => simp only [hst, Fault.ok_bind, hb, hrestyle]

section

variable {going : Session → Nat → Prop} {done : Session → Pass → Prop}

/-- **If every pass to the end of a line is the last one or asks for the one that follows, the
passes from a position on end.** -/
theorem settleFrom_of_advances
    (hstep : ∀ s pos, going s pos →
      Advances going done s pos (nextLineStart s.buffer.text pos)) {s : Session} {pos : Nat}
    (h : going s pos) :
    ∃ passes s' last, Session.settleFrom s.buffer.text s.styler s.buffer pos = .ok (passes, s') ∧
      passes.getLast? = some last ∧ last.restyleFrom = none ∧ done s' last := by
  induction hn : byteSize s.buffer.text - pos using Nat.strongRecOn generalizing s pos with
  | ind n ih =>
    obtain ⟨pass, s', hstyle, htext, hcases⟩ := hstep s pos h
    have hnext := settleFrom_eq hstyle
    rcases hcases with ⟨hnone, hdone⟩ | ⟨hsome, hlt, hsize, hgoing⟩
    · rw [hnone] at hnext
      exact ⟨[pass], s', pass, hnext, rfl, hnone, hdone⟩
    · rw [Buffer.size] at hsize
      obtain ⟨passes, s'', last, hrest, hlast, hnone, hdone⟩ :=
        ih (byteSize s'.buffer.text - nextLineStart s.buffer.text pos) (by rw [htext]; omega)
          hgoing rfl
      rw [htext] at hrest
      rw [hsome] at hnext
      simp only [if_pos (And.intro hlt hsize), hrest] at hnext
      refine ⟨pass :: passes, s'', last, hnext, ?_, hnone, hdone⟩
      rw [List.getLast?_cons, hlast]
      rfl

/-- So do those that follow a request. -/
theorem settle_of_advances
    (hstep : ∀ s pos, going s pos →
      Advances going done s pos (nextLineStart s.buffer.text pos)) {s : Session} {start stop : Nat}
    (h : Advances going done s start stop) :
    ∃ passes s' last, s.settle start stop = .ok (passes, s') ∧ passes.getLast? = some last ∧
      last.restyleFrom = none ∧ done s' last := by
  obtain ⟨pass, s', hstyle, -, hcases⟩ := h
  rw [Session.settle, hstyle, Fault.ok_bind]
  rcases hcases with ⟨hnone, hdone⟩ | ⟨hsome, -, -, hgoing⟩
  · simp only [hnone]
    exact ⟨[pass], s', pass, rfl, rfl, hnone, hdone⟩
  · obtain ⟨passes, s'', last, hrest, hlast, hnone, hdone⟩ := settleFrom_of_advances hstep hgoing
    simp only [hsome, hrest]
    refine ⟨pass :: passes, s'', last, rfl, ?_, hnone, hdone⟩
    rw [List.getLast?_cons, hlast]
    rfl

end

/-! ### Settling -/

/-- Where a pass from a position on may end: at a line start behind what was inserted, or at the end
of the text. -/
def EndsBehind (x y : Text) (pos stop : Nat) : Prop :=
  IsLineStart (x ++ y) stop ∧ pos < stop ∧ byteSize x < stop ∨ stop = byteSize (x ++ y)

theorem EndsBehind.last {x y : Text} {pos stop : Nat} (h : EndsBehind x y pos stop) :
    IsLineStart (x ++ y) stop ∨ stop = byteSize (x ++ y) := h.imp_left And.left

theorem Settling.le_stop {s : Session} {u x y : Text} {pos stop : Nat} (h : s.Settling r u x y pos)
    (hstop : EndsBehind x y pos stop) : pos ≤ stop := by
  rcases hstop with ⟨-, hlt, -⟩ | rfl
  · exact Nat.le_of_lt hlt
  · exact h.le

/-- The next line starts behind the position, unless the text ends before. -/
theorem Settling.endsBehind_next {s : Session} {u x y : Text} {pos : Nat}
    (h : s.Settling r u x y pos) (hx : byteSize x < pos) :
    EndsBehind x y pos (nextLineStart (x ++ y) pos) := by
  obtain ⟨a, b, hab, rfl⟩ := h.boundary
  rw [EndsBehind, hab]
  rcases nextLineStart_cases a b with hend | ⟨hlt, hline⟩
  · exact Or.inr hend
  · exact Or.inl ⟨hline, hlt, Nat.lt_trans hx hlt⟩

/-- The passes go on behind the edit. -/
def GoingOn (r : Registry) (u x y : Text) (s : Session) (pos : Nat) : Prop :=
  s.Settling r u x y pos ∧ s.Shows r u x y pos ∧ byteSize x < pos

/-- **One pass of settling** leaves the session settled, or asks for the pass that follows. -/
theorem Settling.advances {s : Session} (hr : r.OnOneLine) {u x y : Text} {pos stop : Nat}
    (h : s.Settling r u x y pos) (hshows : s.Shows r u x y pos)
    (hfit : byteSize (x ++ y) < Size.bound) (hstop : EndsBehind x y pos stop) :
    Advances (GoingOn r u x y) (fun s _ => s.buffer.text = x ++ y ∧ s.Settled r) s pos stop := by
  have hle := h.le_stop hstop
  obtain ⟨pass, s', hstyle, hsettling', hstyles, hrestyle⟩ := h.exists_pass hr hfit hle hstop.last
  have hshows' := hshows.pass hr h.length_styles hle hstop.last hstyles
  have htext := hsettling'.text
  refine ⟨pass, s', hstyle, htext.trans h.text.symm, ?_⟩
  rw [Buffer.size, h.text]
  by_cases hsize : stop < byteSize (x ++ y)
  · obtain ⟨hline, hlt, hx⟩ := hstop.resolve_right (Nat.ne_of_lt hsize)
    by_cases hget : s.styler.painted.get? stop = some (r.stateAt (x ++ y) stop)
    · -- what was painted behind the end was painted from the state there
      obtain ⟨a, b, rfl, rfl, hu, hwhole, hagree⟩ :=
        h.agree hlt hsize hline (fun heq => absurd heq (Nat.ne_of_gt hx)) hget
      exact Or.inl ⟨by rw [hrestyle, if_neg fun hnot => hnot.2.2 ⟨hline, hget⟩], htext,
        hsettling'.settled_of_agree hr hshows' hu hwhole hagree⟩
    · exact Or.inr ⟨by rw [hrestyle, if_pos ⟨hlt, hsize, fun hboth => hget hboth.2⟩], hlt, hsize,
        hsettling', hshows', hx⟩
  · exact Or.inl ⟨by rw [hrestyle, if_neg fun hnot => hsize hnot.2.1], htext,
      hsettling'.settled_of_end hshows' (Nat.le_antisymm hsettling'.le (Nat.le_of_not_lt hsize))⟩

/-- **A request and the passes that it asks for end, and leave the session settled.** -/
theorem Settling.settle {s : Session} (hr : r.OnOneLine) {u x y : Text} {pos stop : Nat}
    (h : s.Settling r u x y pos) (hshows : s.Shows r u x y pos)
    (hfit : byteSize (x ++ y) < Size.bound) (hstop : EndsBehind x y pos stop) :
    ∃ passes s', s.settle pos stop = .ok (passes, s') ∧
      s'.buffer.text = x ++ y ∧ s'.Settled r ∧
      ∃ pass, passes.getLast? = some pass ∧ pass.restyleFrom = none := by
  have hstep : ∀ s' pos', GoingOn r u x y s' pos' → Advances (GoingOn r u x y)
      (fun s _ => s.buffer.text = x ++ y ∧ s.Settled r) s' pos'
      (nextLineStart s'.buffer.text pos') := by
    rintro s' pos' ⟨hsettling, hshows', hx⟩
    rw [hsettling.text]
    exact hsettling.advances hr hshows' hfit (hsettling.endsBehind_next hx)
  obtain ⟨passes, s', last, hsettle, hlast, hnone, htext, hsettled⟩ :=
    settle_of_advances hstep (h.advances hr hshows hfit hstop)
  exact ⟨passes, s', hsettle, htext, hsettled, last, hlast, hnone⟩

end Session

end TemplateStyler
