import TemplateStyler.Proofs.Session.Settle

/-!
# Edit sessions

An editor styles a text once and then edits it, each time painting from the line of the edit on
until the styler asks for no more. The buffer then always shows what styling from scratch would
show.

* `Session.Act`: an edit with its report and the passes after it, or a pass of its own.
  `Session.perform` does one, `Session.script` several. `Act.Makes` is what an act makes of a text.
* `Session.Valid`: acts that can be done, one after the other, from a text on.
* `Settled.perform`: **a valid act never fails**, and leaves a settled session settled.
* `styles_of_script`: **after every act the buffer holds the edited text and shows its colours**, as
  if it was styled from scratch, and the passes after an edit end.
-/

namespace TemplateStyler

open Text

variable {r : Registry}

namespace Session

/-- How the styler is told of an edit. -/
inductive Report where
  /-- With the range that was replaced. -/
  | range
  /-- By forgetting all from its start on. -/
  | start
  deriving DecidableEq, Repr, Inhabited

/-- What an editor does. -/
inductive Act where
  | edit (start stop : Nat) (inserted : Text) (report : Report)
  | style (start stop : Nat)
  deriving DecidableEq, Repr, Inhabited

/-- Whether an act is an edit. -/
def Act.isEdit : Act → Bool
  | .edit .. => true
  | .style .. => false

/-- An act with the passes that it took and the session after it. -/
structure Step where
  act : Act
  passes : List Pass
  session : Session
  deriving DecidableEq, Repr, Inhabited

/-- The session with the styler told of an edit. -/
def tell (s : Session) (start stop inserted : Nat) : Report → Except Fault Session
  | .range => s.edited start stop inserted
  | .start => .ok (s.forgetFrom start)

/-- One act. After an edit it paints from the line of the edit to the end of the line behind what
was inserted, and on from there as long as the styler asks for it. -/
def perform (s : Session) (act : Act) : Except Fault Step := do
  match act with
  | .edit start stop inserted report =>
    let s ← s.edit start stop inserted
    let s ← s.tell start stop (byteSize inserted) report
    let (passes, s) ← s.settle (lineStart s.buffer.text start)
      (nextLineStart s.buffer.text (start + byteSize inserted))
    return ⟨act, passes, s⟩
  | .style start stop =>
    let (pass, s) ← s.style start stop
    return ⟨act, [pass], s⟩

/-- Several acts, one after the other. -/
def script : Session → List Act → Except Fault (List Step)
  | _, [] => .ok []
  | s, act :: acts => do
    let step ← s.perform act
    return step :: (← script step.session acts)

/-- What an act makes of a text: an edit puts the inserted text in the place of a part, and a pass
changes nothing. -/
inductive Act.Makes : Act → Text → Text → Prop
  | edit (before removed inserted after : Text) (report : Report) :
      Makes (.edit (byteSize before) (byteSize (before ++ removed)) inserted report)
        (before ++ removed ++ after) (before ++ inserted ++ after)
  | style (start stop : Nat) (text : Text) : Makes (.style start stop) text text

/-- Acts that can be done from a text on: edits replace a part of the text by one with which it has
a size, and passes end at a line start or at the end of the text. -/
inductive Valid : Text → List Act → Prop
  | nil (text : Text) : Valid text []
  | edit {before removed inserted after : Text} {report : Report} {acts : List Act}
      (hfit : byteSize (before ++ inserted ++ after) < Size.bound)
      (h : Valid (before ++ inserted ++ after) acts) :
      Valid (before ++ removed ++ after)
        (.edit (byteSize before) (byteSize (before ++ removed)) inserted report :: acts)
  | style {text : Text} {start stop : Nat} {acts : List Act}
      (hstop : IsLineStart text stop ∨ stop = byteSize text) (h : Valid text acts) :
      Valid text (.style start stop :: acts)

/-! ### One act -/

/-- A report never fails while the text has a size. -/
theorem Settled.tell {s s' : Session} (hr : r.OnOneLine) (h : s.Settled r)
    {before removed inserted after : Text} (htext : s.buffer.text = before ++ removed ++ after)
    (hfit : byteSize (before ++ inserted ++ after) < Size.bound)
    (hedit : s.edit (byteSize before) (byteSize (before ++ removed)) inserted = .ok s')
    (report : Report) :
    ∃ s'', s'.tell (byteSize before) (byteSize (before ++ removed)) (byteSize inserted) report =
        .ok s'' ∧
      s''.Settling r (before ++ removed) (before ++ inserted) after
        (lineStart (before ++ inserted ++ after) (byteSize before)) ∧
      s''.Shows r (before ++ removed) (before ++ inserted) after
        (lineStart (before ++ inserted ++ after) (byteSize before)) := by
  have hstyles : s'.buffer.styles = s.buffer.styles.take (byteSize before) ++
      List.replicate (byteSize inserted) none ++
      s.buffer.styles.drop (byteSize (before ++ removed)) := by
    rw [edit_append inserted htext] at hedit
    cases hedit
    rfl
  cases report with
  | start => exact ⟨_, rfl, h.forgetFrom htext hedit, h.shows hr htext hstyles⟩
  | range =>
    obtain ⟨s'', htold, hbuffer⟩ := h.sound.exists_edited htext hfit hedit
    exact ⟨s'', htold, h.edited htext hedit htold, h.shows hr htext (by rw [hbuffer, hstyles])⟩

/-- The first pass after an edit ends behind what was inserted. -/
theorem endsBehind_first (before inserted after : Text) :
    EndsBehind (before ++ inserted) after
      (lineStart (before ++ inserted ++ after) (byteSize before))
      (nextLineStart (before ++ inserted ++ after) (byteSize (before ++ inserted))) := by
  rcases nextLineStart_cases (before ++ inserted) after with hend | ⟨hlt, hline⟩
  · exact Or.inr hend
  · refine Or.inl ⟨hline, ?_, hlt⟩
    obtain ⟨whole, line, hbefore, -, -, hstart⟩ := exists_lineStart before (inserted ++ after)
    rw [← List.append_assoc] at hstart
    have hle : byteSize before = byteSize whole + byteSize line := by
      rw [hbefore, byteSize_append]
    rw [byteSize_append before inserted] at hlt
    rw [hstart, byteSize_append before inserted]
    omega

/-- **An edit and the passes after it leave the session settled.** -/
theorem Settled.perform_edit {s : Session} (hr : r.OnOneLine) (h : s.Settled r)
    {before removed inserted after : Text} (htext : s.buffer.text = before ++ removed ++ after)
    (hfit : byteSize (before ++ inserted ++ after) < Size.bound) (report : Report) :
    ∃ step, s.perform (.edit (byteSize before) (byteSize (before ++ removed)) inserted report) =
        .ok step ∧
      step.act = .edit (byteSize before) (byteSize (before ++ removed)) inserted report ∧
      step.session.buffer.text = before ++ inserted ++ after ∧ step.session.Settled r ∧
      ∃ pass, step.passes.getLast? = some pass ∧ pass.restyleFrom = none := by
  have hedit := edit_append inserted htext
  obtain ⟨s', htell, hsettling, hshows⟩ := h.tell hr htext hfit hedit report
  obtain ⟨passes, s'', hsettle, htext'', hsettled, pass, hlast, hend⟩ :=
    hsettling.settle hr hshows hfit (endsBehind_first before inserted after)
  refine ⟨⟨_, passes, s''⟩, ?_, rfl, htext'', hsettled, pass, hlast, hend⟩
  rw [← hsettling.text, byteSize_append before inserted] at hsettle
  simp only [perform, hedit, Fault.ok_bind, htell, hsettle]
  rfl

/-- So does a pass that ends at a line start, or at the end of the text. -/
theorem Settled.perform_style {s : Session} (hr : r.OnOneLine) (h : s.Settled r)
    (hfit : s.buffer.size < Size.bound) (start : Nat) {stop : Nat}
    (hstop : IsLineStart s.buffer.text stop ∨ stop = byteSize s.buffer.text) :
    ∃ step, s.perform (.style start stop) = .ok step ∧ step.act = .style start stop ∧
      step.session.buffer.text = s.buffer.text ∧ step.session.Settled r := by
  obtain ⟨pass, s', hstyle, hstyles⟩ := h.sound.style hr hfit start stop
  obtain ⟨hsound, htext, -⟩ := h.sound.of_style hr hstyle
  obtain ⟨hle, hle'⟩ := s.bounds_le start stop
  have hstop' : (s.bounds start stop).2 = stop := floorBoundary_eq_self hstop
  have hshown : s'.buffer.styles = (r.colours s.buffer.text).map some := by
    rw [hstyles, hstop', h.styles, Registry.shownIn_eq hr hstop, ← List.map_take, ← List.map_drop,
      ← List.map_append, ← List.map_append]
    rw [hstop'] at hle
    have hfront : (r.colours s.buffer.text).take (s.bounds start stop).1 =
        ((r.colours s.buffer.text).take stop).take (s.bounds start stop).1 := by
      rw [List.take_take, Nat.min_eq_left hle]
    rw [hfront, List.take_append_drop, List.take_append_drop]
  refine ⟨⟨_, [pass], s'⟩, ?_, rfl, htext, hsound, h.painted.style hr h.sound hstyle, ?_⟩
  · simp only [perform, hstyle, Fault.ok_bind]
    rfl
  · rw [htext, hshown]

/-- **A valid act never fails.** It leaves the session settled and the acts behind it valid. -/
theorem Settled.perform {s : Session} (hr : r.OnOneLine) (h : s.Settled r)
    (hfit : s.buffer.size < Size.bound) {act : Act} {acts : List Act}
    (hvalid : Valid s.buffer.text (act :: acts)) :
    ∃ step, s.perform act = .ok step ∧ step.act = act ∧
      act.Makes s.buffer.text step.session.buffer.text ∧
      Valid step.session.buffer.text acts ∧ step.session.Settled r ∧
      step.session.buffer.size < Size.bound ∧
      (act.isEdit = true → ∃ pass, step.passes.getLast? = some pass ∧ pass.restyleFrom = none) := by
  generalize htext : s.buffer.text = text at hvalid
  cases hvalid with
  | @edit before removed inserted after report _ hfit' hacts =>
    obtain ⟨step, hstep, hact, htext', hsettled, hend⟩ := h.perform_edit hr htext hfit' report
    refine ⟨step, hstep, hact, ?_, ?_, hsettled, ?_, fun _ => hend⟩
    · rw [htext']
      exact .edit before removed inserted after report
    · rw [htext']
      exact hacts
    · rw [Buffer.size, htext']
      exact hfit'
  | @style _ start stop _ hstop hacts =>
    subst htext
    obtain ⟨step, hstep, hact, htext', hsettled⟩ := h.perform_style hr hfit start hstop
    refine ⟨step, hstep, hact, ?_, ?_, hsettled, ?_, fun hedit => by cases hedit⟩
    · rw [htext']
      exact .style start stop _
    · rw [htext']
      exact hacts
    · rw [Buffer.size, htext']
      exact hfit

/-! ### Several acts -/

/-- **After every act the session is settled**, and its text is what the act makes of the text
before it. -/
theorem Settled.script {s : Session} (hr : r.OnOneLine) (h : s.Settled r)
    (hfit : s.buffer.size < Size.bound) {acts : List Act} (hvalid : Valid s.buffer.text acts) :
    ∃ steps, s.script acts = .ok steps ∧ steps.map Step.act = acts ∧
      (∀ x ∈ (s :: steps.map Step.session).zip steps,
        x.2.act.Makes x.1.buffer.text x.2.session.buffer.text) ∧
      ∀ step ∈ steps, step.session.Settled r ∧ step.session.buffer.size < Size.bound ∧
        (step.act.isEdit = true →
          ∃ pass, step.passes.getLast? = some pass ∧ pass.restyleFrom = none) := by
  induction acts generalizing s with
  | nil => exact ⟨[], rfl, rfl, by simp, by simp⟩
  | cons act acts ih =>
    obtain ⟨step, hstep, rfl, hmakes, hvalid', hsettled, hsize, hend⟩ := h.perform hr hfit hvalid
    obtain ⟨steps, hsteps, hacts, htexts, hall⟩ := ih hsettled hsize hvalid'
    refine ⟨step :: steps, ?_, by rw [List.map_cons, hacts], fun x hx => ?_, fun step' hmem => ?_⟩
    · simp only [Session.script, hstep, Fault.ok_bind, hsteps]
      rfl
    · rw [List.map_cons, List.zip_cons_cons] at hx
      rcases List.mem_cons.1 hx with rfl | hx
      · exact hmakes
      · exact htexts x hx
    · rcases List.mem_cons.1 hmem with rfl | hmem
      · exact ⟨hsettled, hsize, hend⟩
      · exact hall step' hmem

/-- **Painting only what changed is painting everything.** A text is styled once, and then edited
and painted in any order. No act fails, the passes after an edit end, and after every act the buffer
holds the text that the act makes of the one before it. Each byte has the colour of that text, which
is the style that styling it from scratch gives. -/
theorem styles_of_script (hr : r.OnOneLine) {text : Text} {acts : List Act}
    (hfit : byteSize text < Size.bound) (hvalid : Valid text acts) :
    ∃ pass s steps, (ofText r text).style 0 (byteSize text) = .ok (pass, s) ∧
      s.script acts = .ok steps ∧ steps.map Step.act = acts ∧
      (∀ step ∈ steps, step.act.isEdit = true →
        ∃ pass, step.passes.getLast? = some pass ∧ pass.restyleFrom = none) ∧
      s.buffer.text = text ∧
      (∀ x ∈ (s :: steps.map Step.session).zip steps,
        x.2.act.Makes x.1.buffer.text x.2.session.buffer.text) ∧
      ∀ s' ∈ s :: steps.map Step.session,
        s'.Full r ∧ s'.buffer.styles = (r.colours s'.buffer.text).map some := by
  have hnew := sound_ofText r text
  obtain ⟨pass, s, hstyle, -⟩ := hnew.style_all hr hfit
  have hsettled := hnew.settled_of_all hr hfit hstyle
  obtain ⟨-, htext, -⟩ := hnew.of_style hr hstyle
  have hsize : s.buffer.size < Size.bound := by
    rw [Buffer.size, htext]
    exact hfit
  obtain ⟨steps, hsteps, hacts, htexts, hall⟩ :=
    hsettled.script hr hsize (by rw [htext]; exact hvalid)
  refine ⟨pass, s, steps, hstyle, hsteps, hacts, fun step hstep => (hall step hstep).2.2, htext,
    htexts, fun s' hmem => ?_⟩
  rcases List.mem_cons.1 hmem with rfl | hmem
  · exact ⟨hsettled.full hr hsize, hsettled.styles⟩
  · obtain ⟨step, hstep, rfl⟩ := List.mem_map.1 hmem
    obtain ⟨hsettled', hsize', -⟩ := hall step hstep
    exact ⟨hsettled'.full hr hsize', hsettled'.styles⟩

/-- Two lines are joined and parted again, and a third edit opens a script before them. -/
theorem styles_of_script_join_part :
    ∃ acts : List Act,
      acts = [.edit 1 2 [] .range, .edit 1 1 "\n".toList .range, .style 0 2,
        .edit 0 0 "....\n".toList .start] ∧
      Registry.OnOneLine {} ∧ byteSize "a\n+ yes\n".toList < Size.bound ∧
      Valid "a\n+ yes\n".toList acts ∧
      ∃ pass s steps, (ofText {} "a\n+ yes\n".toList).style 0 8 = .ok (pass, s) ∧
        s.script acts = .ok steps ∧ steps.length = 4 ∧ s.buffer.text = "a\n+ yes\n".toList ∧
        (∀ x ∈ (s :: steps.map Step.session).zip steps,
          x.2.act.Makes x.1.buffer.text x.2.session.buffer.text) ∧
        ∀ s' ∈ s :: steps.map Step.session,
          s'.Full {} ∧ s'.buffer.styles = (Registry.colours {} s'.buffer.text).map some := by
  have hr : Registry.OnOneLine {} := ⟨by decide, by decide⟩
  have hfit : byteSize "a\n+ yes\n".toList < Size.bound := by decide
  have hvalid : Valid "a\n+ yes\n".toList
      [.edit 1 2 [] .range, .edit 1 1 "\n".toList .range, .style 0 2,
        .edit 0 0 "....\n".toList .start] :=
    @Valid.edit ['a'] ['\n'] [] "+ yes\n".toList _ _ (by decide)
      (@Valid.edit ['a'] [] ['\n'] "+ yes\n".toList _ _ (by decide)
        (.style (Or.inl (by decide))
          (@Valid.edit [] [] "....\n".toList "a\n+ yes\n".toList _ _ (by decide) (.nil _))))
  obtain ⟨pass, s, steps, hstyle, hscript, hacts, -, hshown⟩ := styles_of_script hr hfit hvalid
  refine ⟨_, rfl, hr, hfit, hvalid, pass, s, steps, hstyle, hscript, ?_, hshown⟩
  simpa using congrArg List.length hacts

end Session

end TemplateStyler
