import Mathlib.Order.Bounds.Defs
import TemplateStyler.Proofs.Session.Script
import TemplateStyler.Proofs.Session.Tracked

/-!
# Where painting stops

The passes after an edit go on from line to line while old and new text differ in the state of a
line, and no further.

* `Registry.Agrees`: at a line start of the new text the state is the one that the old text has at
  the same place. `Registry.FirstAgreement`: a position is the first of these behind the line of the
  edit, or the end of the text if there is none.
* `Tracked.settle`: **the passes after an edit end at the first agreement**, as long as no painted
  state is missing.
* `firstAgreement_of_script`: **in every session of reported edits the passes after each edit end
  there.**
-/

namespace TemplateStyler

open Text Lexeme

variable {r : Registry}

/-! ### Agreement of two texts -/

namespace Registry

/-- The state after the lexemes of a text up to a position. -/
def stateThrough (r : Registry) (text : Text) (pos : Nat) : Except Fault State :=
  r.walk .initial ((r.grammar.scanText text).filter fun l => l.stop ≤ pos)

/-- A line starts at a position of the new text, before its end, in the state that the old text has
at the same place. Both texts go on alike, the old one from `stop` and the new one from `behind`. -/
def Agrees (r : Registry) (old : Text) (stop : Nat) (new : Text) (behind pos : Nat) : Prop :=
  IsLineStart new pos ∧ pos < byteSize new ∧
    ∃ s, r.stateThrough new pos = .ok s ∧ r.stateThrough old (pos - behind + stop) = .ok s

/-- The first position from the next line on at which two texts agree, or the end of the new one if
they agree at none. -/
def FirstAgreement (r : Registry) (old : Text) (stop : Nat) (new : Text) (behind last : Nat) :
    Prop :=
  IsLeast {pos | nextLineStart new behind ≤ pos ∧ r.Agrees old stop new behind pos} last ∨
    last = byteSize new ∧
      ∀ pos, nextLineStart new behind ≤ pos → ¬ r.Agrees old stop new behind pos

theorem stateThrough_append (hr : r.OnOneLine) {a : Text} (ha : WholeLines a) (b : Text) :
    r.stateThrough (a ++ b) (byteSize a) = .ok (r.stateAfter a) := by
  rw [stateThrough, Session.filter_stop_scanText hr ha,
    r.walk_eq_after State.consistent_initial]
  rfl

/-- Behind an edit the texts agree where they lead to the same state. -/
theorem agrees_append_iff (hr : r.OnOneLine) {u x a b : Text} (ha : a ≠ []) (hb : b ≠ [])
    (hwhole : WholeLines a) :
    r.Agrees (u ++ (a ++ b)) (byteSize u) (x ++ (a ++ b)) (byteSize x) (byteSize (x ++ a)) ↔
      r.stateAfter (u ++ a) = r.stateAfter (x ++ a) := by
  have hnew := stateThrough_append hr (hwhole.prepend ha x) b
  have hold := stateThrough_append hr (hwhole.prepend ha u) b
  have hsize : byteSize (x ++ a) < byteSize (x ++ a ++ b) := by
    have := byteSize_pos hb
    rw [byteSize_append (x ++ a)]
    omega
  have hplace : byteSize (x ++ a) - byteSize x + byteSize u = byteSize (u ++ a) := by
    simp only [byteSize_append]
    omega
  rw [Agrees, hplace, ← List.append_assoc, ← List.append_assoc, hnew, hold]
  constructor
  · rintro ⟨-, -, s, hs, hs'⟩
    exact Except.ok.inj (hs'.trans hs.symm)
  · intro heq
    exact ⟨isLineStart_append.2 (hwhole.prepend ha x), hsize, _, rfl, congrArg Except.ok heq⟩

end Registry

namespace Session

/-- What is painted at a line start tells whether the texts agree there. -/
theorem Tracked.agrees_iff {s : Session} (hr : r.OnOneLine) {u x y : Text} {pos p : Nat}
    (h : s.Tracked r u x y pos) (hline : IsLineStart (x ++ y) p) (hx : byteSize x < p)
    (hsize : p < byteSize (x ++ y)) (hle : pos ≤ p) :
    r.Agrees (u ++ y) (byteSize u) (x ++ y) (byteSize x) p ↔
      s.styler.painted.get? p = some (r.stateAt (x ++ y) p) := by
  obtain ⟨a, b, rfl, ha, hb, hwhole, rfl⟩ := exists_behind hline hx hsize
  rw [Registry.agrees_append_iff hr ha hb hwhole, h.back a b rfl ha hb hwhole hle,
    ← List.append_assoc, Registry.stateAt_append, Option.some.injEq]

/-! ### The passes after an edit -/

/-- The passes go on, and the texts did not agree so far. -/
structure Seeking (r : Registry) (u x y : Text) (s : Session) (pos : Nat) : Prop where
  settling : s.Settling r u x y pos
  tracked : s.Tracked r u x y pos
  behind : byteSize x < pos
  next : nextLineStart (x ++ y) (byteSize x) ≤ pos
  earlier : ∀ p, nextLineStart (x ++ y) (byteSize x) ≤ p → p ≤ pos →
    ¬ r.Agrees (u ++ y) (byteSize u) (x ++ y) (byteSize x) p

/-- The last pass ended at the first agreement. -/
def Found (r : Registry) (u x y : Text) (s : Session) (pass : Pass) : Prop :=
  s.Complete r ∧
    r.FirstAgreement (u ++ y) (byteSize u) (x ++ y) (byteSize x)
      (pass.start + Span.total pass.spans)

/-- **One pass** ends at the first agreement, or asks for the pass that follows. -/
theorem Tracked.advances {s : Session} (hr : r.OnOneLine) {u x y : Text} {pos stop : Nat}
    (h : s.Tracked r u x y pos) (hs : s.Settling r u x y pos)
    (hfit : byteSize (x ++ y) < Size.bound) (hstop : EndsBehind x y pos stop)
    (hnext : nextLineStart (x ++ y) (byteSize x) ≤ stop)
    (hearlier : ∀ p, nextLineStart (x ++ y) (byteSize x) ≤ p → p < stop →
      ¬ r.Agrees (u ++ y) (byteSize u) (x ++ y) (byteSize x) p) :
    Advances (Seeking r u x y) (Found r u x y) s pos stop := by
  have hle := hs.le_stop hstop
  obtain ⟨pass, s', hstyle, hsettling', -, hrestyle⟩ := hs.exists_pass hr hfit hle hstop.last
  have htracked' := h.pass hr hs hle hstop.last hstyle
  have hend : pass.start + Span.total pass.spans = stop := by
    have hfloor := floorBoundary_eq_self hstop.last
    rw [hs.sound.stop_of_style hr hstyle, hs.bounds (by rw [hfloor]; exact hle), hfloor]
  refine ⟨pass, s', hstyle, hsettling'.text.trans hs.text.symm, ?_⟩
  rw [Buffer.size, hs.text, Found, hend]
  by_cases hsize : stop < byteSize (x ++ y)
  · obtain ⟨hline, hlt, hx⟩ := hstop.resolve_right (Nat.ne_of_lt hsize)
    have hiff := h.agrees_iff hr hline hx hsize hle
    by_cases hagrees : r.Agrees (u ++ y) (byteSize u) (x ++ y) (byteSize x) stop
    · refine Or.inl ⟨?_, ?_, Or.inl ⟨⟨hnext, hagrees⟩, fun p hp => ?_⟩⟩
      · rw [hrestyle, if_neg fun hnot => hnot.2.2 ⟨hline, hiff.1 hagrees⟩]
      · obtain ⟨a, b, rfl, ha, hb, hwhole, rfl⟩ := exists_behind hline hx hsize
        exact htracked'.complete_of_agree hr ha hwhole hsettling'.text
          ((Registry.agrees_append_iff hr ha hb hwhole).1 hagrees)
      · exact Nat.le_of_not_lt fun hlt' => hearlier p hp.1 hlt' hp.2
    · refine Or.inr ⟨?_, hlt, hsize, ⟨hsettling', htracked', hx, hnext, fun p hp hp' => ?_⟩⟩
      · rw [hrestyle, if_pos ⟨hlt, hsize, fun hboth => hagrees (hiff.2 hboth.2)⟩]
      · rcases Nat.lt_or_eq_of_le hp' with hlt' | rfl
        · exact hearlier p hp hlt'
        · exact hagrees
  · have hstop' : stop = byteSize (x ++ y) := Nat.le_antisymm hsettling'.le (Nat.le_of_not_lt hsize)
    refine Or.inl ⟨?_, htracked'.complete_of_end hsettling'.text hstop',
      Or.inr ⟨hstop', fun p hp hagrees => ?_⟩⟩
    · rw [hrestyle, if_neg fun hnot => hsize hnot.2.1]
    · exact hearlier p hp (hstop' ▸ hagrees.2.1) hagrees

/-- **The passes after an edit end at the first agreement.** -/
theorem Tracked.settle {s : Session} (hr : r.OnOneLine) {u x y : Text} {pos : Nat}
    (h : s.Tracked r u x y pos) (hs : s.Settling r u x y pos)
    (hfit : byteSize (x ++ y) < Size.bound)
    (hstop : EndsBehind x y pos (nextLineStart (x ++ y) (byteSize x))) :
    ∃ passes s' last, s.settle pos (nextLineStart (x ++ y) (byteSize x)) = .ok (passes, s') ∧
      passes.getLast? = some last ∧ last.restyleFrom = none ∧ Found r u x y s' last := by
  have hstep : ∀ s' pos', Seeking r u x y s' pos' →
      Advances (Seeking r u x y) (Found r u x y) s' pos'
        (nextLineStart s'.buffer.text pos') := by
    rintro s' pos' ⟨hsettling, htracked, hx, hnext, hearlier⟩
    have hstop' := hsettling.endsBehind_next hx
    rw [hsettling.text]
    refine htracked.advances hr hsettling hfit hstop'
      (Nat.le_trans hnext (hsettling.le_stop hstop')) fun p hp hlt hagrees => ?_
    -- no line starts between two passes
    obtain ⟨a, b, hab, rfl⟩ := hsettling.boundary
    refine hearlier p hp (Nat.le_of_not_lt fun hlt' => ?_) hagrees
    rw [hab] at hagrees hlt
    exact Nat.not_le_of_lt hlt (nextLineStart_le hagrees.1 hlt')
  exact settle_of_advances hstep (h.advances hr hs hfit hstop (Nat.le_refl _)
    fun p hp hlt => absurd hlt (Nat.not_lt_of_le hp))

/-! ### Edits in sequence -/

/-- A step is a reported edit, and the last pass after it ends at the first agreement of the two
texts. -/
def StopsFirst (r : Registry) (s : Session) (step : Step) : Prop :=
  ∃ start stop inserted last, step.act = .edit start stop inserted .range ∧
    step.passes.getLast? = some last ∧ last.restyleFrom = none ∧
    r.FirstAgreement s.buffer.text stop step.session.buffer.text (start + byteSize inserted)
      (last.start + Span.total last.spans)

/-- **An edit and the passes after it** leave a session complete. -/
theorem Complete.perform_edit {s : Session} (hr : r.OnOneLine) (h : s.Complete r)
    (hs : s.Settled r) {before removed inserted after : Text}
    (htext : s.buffer.text = before ++ removed ++ after)
    (hfit : byteSize (before ++ inserted ++ after) < Size.bound) :
    ∃ step, s.perform (.edit (byteSize before) (byteSize (before ++ removed)) inserted .range) =
        .ok step ∧
      step.act = .edit (byteSize before) (byteSize (before ++ removed)) inserted .range ∧
      step.session.buffer.text = before ++ inserted ++ after ∧ step.session.Settled r ∧
      step.session.Complete r ∧ StopsFirst r s step := by
  have hedit := edit_append inserted htext
  obtain ⟨s', htell, hsettling, -⟩ := hs.tell hr htext hfit hedit .range
  obtain ⟨passes, s'', last, hsettle, hlast, hnone, hcomplete, hfirst⟩ :=
    (h.tracked htext hedit htell).settle hr hsettling hfit (endsBehind_first before inserted after)
  obtain ⟨step, hstep, hact, htext', hsettled, -⟩ := hs.perform_edit hr htext hfit .range
  have hperform :
      s.perform (.edit (byteSize before) (byteSize (before ++ removed)) inserted .range) = .ok
        ⟨.edit (byteSize before) (byteSize (before ++ removed)) inserted .range, passes, s''⟩ := by
    rw [← hsettling.text, byteSize_append before inserted] at hsettle
    simp only [perform, hedit, Fault.ok_bind, htell, hsettle]
    rfl
  cases hstep.symm.trans hperform
  refine ⟨_, hperform, rfl, htext', hsettled, hcomplete, _, _, inserted, last, rfl, hlast, hnone,
    ?_⟩
  rw [htext, htext', ← byteSize_append]
  exact hfirst

/-- Edits of a complete session. -/
theorem Complete.script {s : Session} (hr : r.OnOneLine) (h : s.Complete r) (hs : s.Settled r)
    {acts : List Act} (hvalid : Valid s.buffer.text acts)
    (hrange : ∀ act ∈ acts, ∃ start stop inserted, act = .edit start stop inserted .range) :
    ∃ steps, s.script acts = .ok steps ∧ steps.map Step.act = acts ∧
      ∀ x ∈ (s :: steps.map Step.session).zip steps, StopsFirst r x.1 x.2 := by
  generalize htext : s.buffer.text = text at hvalid
  induction hvalid generalizing s with
  | nil text => exact ⟨[], rfl, rfl, by simp⟩
  | @edit before removed inserted after report acts hfit _ ih =>
    obtain ⟨_, _, _, hact⟩ := hrange _ List.mem_cons_self
    cases hact
    obtain ⟨step, hstep, hact', htext', hsettled, hcomplete, hfirst⟩ :=
      h.perform_edit hr hs htext hfit
    obtain ⟨steps, hsteps, hacts, hall⟩ := ih hcomplete hsettled
      (fun act hmem => hrange act (List.mem_cons_of_mem _ hmem)) htext'
    refine ⟨step :: steps, ?_, by rw [List.map_cons, hact', hacts], fun x hx => ?_⟩
    · simp only [Session.script, hstep, Fault.ok_bind, hsteps]
      rfl
    · rw [List.map_cons, List.zip_cons_cons] at hx
      rcases List.mem_cons.1 hx with rfl | hx
      · exact hfirst
      · exact hall x hx
  | @style text start stop acts _ _ _ =>
    obtain ⟨_, _, _, hact⟩ := hrange _ List.mem_cons_self
    cases hact

/-- **Painting stops exactly where it may.** A text is styled once and then edited, every edit being
reported with its range. The passes after each edit end at the first line start from the next line
on, before the end of the text, at which the state is the one that the text before the edit has at
the same place, and at the end of the text if there is none. -/
theorem firstAgreement_of_script (hr : r.OnOneLine) {text : Text} {acts : List Act}
    (hfit : byteSize text < Size.bound) (hvalid : Valid text acts)
    (hrange : ∀ act ∈ acts, ∃ start stop inserted, act = .edit start stop inserted .range) :
    ∃ pass s steps, (ofText r text).style 0 (byteSize text) = .ok (pass, s) ∧
      s.script acts = .ok steps ∧ steps.map Step.act = acts ∧
      ∀ x ∈ (s :: steps.map Step.session).zip steps, StopsFirst r x.1 x.2 := by
  have hnew := sound_ofText r text
  obtain ⟨pass, s, hstyle, -⟩ := hnew.style_all hr hfit
  obtain ⟨-, htext, -⟩ := hnew.of_style hr hstyle
  obtain ⟨steps, hsteps, hacts, hall⟩ := (hnew.complete_of_all hr hstyle).script hr
    (hnew.settled_of_all hr hfit hstyle) (by rw [htext]; exact hvalid) hrange
  exact ⟨pass, s, steps, hstyle, hsteps, hacts, hall⟩

/-- A script is opened in front of a line and taken out again. Both times painting stops behind the
tag that closes scripts, at the first line start whose state is the old one. -/
theorem firstAgreement_of_script_open_close :
    ∃ (text : Text) (acts : List Act) (pass : Pass) (s : Session) (steps : List Step),
      text = "....\n....\na\n#END\nb\n".toList ∧
      acts = [.edit 10 10 "#PYTHON\n".toList .range, .edit 10 18 [] .range] ∧
      Registry.OnOneLine {} ∧ byteSize text < Size.bound ∧ Valid text acts ∧
      (∀ act ∈ acts, ∃ start stop inserted, act = .edit start stop inserted .range) ∧
      (ofText {} text).style 0 (byteSize text) = .ok (pass, s) ∧ s.script acts = .ok steps ∧
      (∀ x ∈ (s :: steps.map Step.session).zip steps, StopsFirst {} x.1 x.2) ∧
      steps.map (fun step => step.passes.map fun p => (p.start, p.start + Span.total p.spans)) =
        [[(10, 20), (20, 25)], [(10, 12), (12, 17)]] := by
  have hr : Registry.OnOneLine {} := ⟨by decide, by decide⟩
  have hfit : byteSize "....\n....\na\n#END\nb\n".toList < Size.bound := by decide
  have hvalid : Valid "....\n....\na\n#END\nb\n".toList
      [.edit 10 10 "#PYTHON\n".toList .range, .edit 10 18 [] .range] :=
    @Valid.edit "....\n....\n".toList [] "#PYTHON\n".toList "a\n#END\nb\n".toList _ _ (by decide)
      (@Valid.edit "....\n....\n".toList "#PYTHON\n".toList [] "a\n#END\nb\n".toList _ _ (by decide)
        (.nil _))
  have hrange : ∀ act ∈ ([.edit 10 10 "#PYTHON\n".toList .range, .edit 10 18 [] .range] : List Act),
      ∃ start stop inserted, act = .edit start stop inserted .range := by
    intro act hact
    rcases List.mem_cons.1 hact with rfl | hact
    · exact ⟨_, _, _, rfl⟩
    · exact ⟨_, _, _, List.mem_singleton.1 hact⟩
  obtain ⟨pass, s, steps, hstyle, hsteps, -, hall⟩ :=
    firstAgreement_of_script hr hfit hvalid hrange
  have hrun : (do
      let whole ← (ofText {} "....\n....\na\n#END\nb\n".toList).style 0 19
      let steps ← whole.2.script [.edit 10 10 "#PYTHON\n".toList .range, .edit 10 18 [] .range]
      return steps.map fun step =>
        step.passes.map fun p => (p.start, p.start + Span.total p.spans) :
          Except Fault (List (List (Nat × Nat)))).toOption =
      some [[(10, 20), (20, 25)], [(10, 12), (12, 17)]] := by
    decide +kernel
  obtain ⟨⟨pass', s'⟩, hstyle', steps', hsteps', heq⟩ := by
    simpa only [Fault.bind_eq_ok_iff] using Fault.eq_ok_of_toOption hrun
  cases hstyle.symm.trans hstyle'
  cases hsteps.symm.trans hsteps'
  exact ⟨_, _, pass, s, steps, rfl, rfl, hr, hfit, hvalid, hrange, hstyle, hsteps, hall,
    Except.ok.inj heq⟩

end Session

end TemplateStyler
