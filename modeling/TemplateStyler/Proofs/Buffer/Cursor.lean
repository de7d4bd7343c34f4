import TemplateStyler.Proofs.Buffer

/-!
# The cursor of a buffer

Edits and painting in any order keep one style for each byte, and what is painted is exactly what
lies between the cursor and the end that is asked for. The cursor is another matter: moving it and
painting keep it in the text, but an edit leaves it where it was, so that the text may come to end
before it. Nothing can be painted then until the cursor is moved back.

* `Buffer.Act`: what can be done to a buffer. `Buffer.script` does several acts and shows the buffer
  before and after each of them. `Buffer.Valid`: acts that can be asked for, one after the other.
* `Buffer.Extent`: the numbers of bytes in a text and before the cursor. They change in a way of
  their own (`Sound.extent_perform`), so that acts can be judged by them alone (`Extent.Along`).
* `Step.Exact`: what a step does to the styles. Every step is such (`Sound.exact`).
* `exists_script_iff`: from what one act needs to what a script needs, for any two properties that
  go together.
* `script_inside_iff`: **the cursor stays in the text if and only if no edit leaves fewer bytes than
  lie before it**, and a script is carried out if and only if it never paints from behind the text.
-/

namespace TemplateStyler.Buffer

open Text

/-! ### Acts -/

/-- What can be done to a buffer. -/
inductive Act where
  /-- A new buffer on a text takes its place. -/
  | new (text : Text)
  | edit (start stop : Nat) (inserted : Text)
  | startStyling (pos : Nat)
  | setStyling (length : Nat) (style : Style)
  deriving DecidableEq, Repr, Inhabited

/-- The buffer after an act. -/
def perform (b : Buffer) : Act → Except Fault Buffer
  | .new text => .ok (ofText text)
  | .edit start stop inserted => b.edit start stop inserted
  | .startStyling pos => .ok (b.startStyling pos)
  | .setStyling length style => b.setStyling length style

/-- An act with the buffers before and after it. -/
structure Step where
  before : Buffer
  act : Act
  after : Buffer
  deriving DecidableEq, Repr, Inhabited

/-- Several acts, one after the other. -/
def script : Buffer → List Act → Except Fault (List Step)
  | _, [] => .ok []
  | b, act :: acts => do
    let b' ← b.perform act
    return ⟨b, act, b'⟩ :: (← script b' acts)

/-- Whether an act can be asked for: an edit of a part of the text, or painting a length whose sum
with the cursor is a size. -/
def Act.Fits (b : Buffer) : Act → Prop
  | .edit start stop _ =>
    start ≤ stop ∧ isBoundary b.text start = true ∧ isBoundary b.text stop = true
  | .setStyling length _ => b.cursor + length < Size.bound
  | .new _ | .startStyling _ => True

/-- Acts each of which can be asked for once those before it are done. -/
def Valid : Buffer → List Act → Prop
  | _, [] => True
  | b, act :: acts => act.Fits b ∧ ∀ b', b.perform act = .ok b' → Valid b' acts

instance (b : Buffer) : (act : Act) → Decidable (act.Fits b)
  | .edit .. => inferInstanceAs (Decidable (_ ∧ _ ∧ _))
  | .setStyling .. => Nat.decLt _ _
  | .new _ | .startStyling _ => .isTrue trivial

instance decidableValid : (b : Buffer) → (acts : List Act) → Decidable (Valid b acts)
  | _, [] => .isTrue trivial
  | b, act :: acts =>
    match h : b.perform act with
    | .ok b' =>
      let _ := decidableValid b' acts
      decidable_of_iff (act.Fits b ∧ Valid b' acts) (by simp [Valid, h])
    | .error _ => decidable_of_iff (act.Fits b) (by simp [Valid, h])

theorem script_cons_eq_ok_iff {b : Buffer} {act : Act} {acts : List Act} {steps : List Step} :
    b.script (act :: acts) = .ok steps ↔
      ∃ b' rest, b.perform act = .ok b' ∧ b'.script acts = .ok rest ∧
        steps = ⟨b, act, b'⟩ :: rest := by
  simp only [script, Fault.bind_eq_ok_iff, Fault.pure_eq_ok, Except.ok.injEq]
  exact ⟨fun ⟨b', hact, rest, hrest, heq⟩ => ⟨b', rest, hact, hrest, heq.symm⟩,
    fun ⟨b', rest, hact, hrest, heq⟩ => ⟨b', hact, rest, hrest, heq.symm⟩⟩

theorem map_act_of_script {b : Buffer} {acts : List Act} {steps : List Step}
    (h : b.script acts = .ok steps) : steps.map Step.act = acts := by
  induction acts generalizing b steps with
  | nil =>
    cases h
    rfl
  | cons act acts ih =>
    obtain ⟨b', rest, -, hrest, rfl⟩ := script_cons_eq_ok_iff.1 h
    rw [List.map_cons, ih hrest]

/-! ### The text and the cursor as numbers -/

/-- The number of bytes of a text, and of those before the cursor. -/
structure Extent where
  size : Nat
  cursor : Nat
  deriving DecidableEq, Repr, Inhabited

/-- The extent of a buffer. -/
def extent (b : Buffer) : Extent := ⟨b.size, b.cursor⟩

/-- The cursor lies in the text, or at its end. -/
def Inside (b : Buffer) : Prop := b.cursor ≤ b.size

namespace Extent

/-- The extent after an act. An edit does not move the cursor. -/
def after (e : Extent) : Act → Extent
  | .new text => ⟨byteSize text, 0⟩
  | .edit start stop inserted => { e with size := e.size - (stop - start) + byteSize inserted }
  | .startStyling pos => { e with cursor := min pos e.size }
  | .setStyling length _ => { e with cursor := min (e.cursor + length) e.size }

/-- An edit leaves at least as many bytes as lie before the cursor. -/
def KeepsCursor (e : Extent) : Act → Prop
  | .edit start stop inserted => e.cursor ≤ e.size - (stop - start) + byteSize inserted
  | .new _ | .startStyling _ | .setStyling .. => True

/-- Painting does not begin behind the text. -/
def PaintsInside (e : Extent) : Act → Prop
  | .setStyling .. => e.cursor ≤ e.size
  | .new _ | .edit .. | .startStyling _ => True

/-- Acts all of which have a property, each at the extent that those before it lead to. -/
def Along (p : Extent → Act → Prop) : Extent → List Act → Prop
  | _, [] => True
  | e, act :: acts => p e act ∧ Along p (e.after act) acts

instance (e : Extent) : (act : Act) → Decidable (e.KeepsCursor act)
  | .edit .. => Nat.decLe _ _
  | .new _ | .startStyling _ | .setStyling .. => .isTrue trivial

instance (e : Extent) : (act : Act) → Decidable (e.PaintsInside act)
  | .setStyling .. => Nat.decLe _ _
  | .new _ | .edit .. | .startStyling _ => .isTrue trivial

instance decidableAlong (p : Extent → Act → Prop) [∀ e act, Decidable (p e act)] :
    (e : Extent) → (acts : List Act) → Decidable (Along p e acts)
  | _, [] => .isTrue trivial
  | e, act :: acts =>
    let _ := decidableAlong p (e.after act) acts
    inferInstanceAs (Decidable (_ ∧ _))

end Extent

/-! ### One act -/

section

variable {b b' : Buffer} {act : Act}

theorem Sound.perform (hb : b.Sound) (h : b.perform act = .ok b') : b'.Sound := by
  cases act with
  | new text =>
    cases h
    exact sound_ofText text
  | edit start stop inserted => exact hb.edit h
  | startStyling pos =>
    cases h
    exact hb
  | setStyling length style =>
    obtain ⟨htext, hlength⟩ := setStyling_same h
    rw [Sound, hlength, size, htext]
    exact hb

/-- What an act does to the extent does not depend on the text. -/
theorem Sound.extent_perform (hb : b.Sound) (h : b.perform act = .ok b') :
    b'.extent = b.extent.after act := by
  cases act with
  | new text =>
    cases h
    rfl
  | edit start stop inserted =>
    obtain ⟨before, removed, after, htext, rfl, rfl, rfl⟩ := edit_eq_ok_iff.1 h
    simp only [extent, Extent.after, size, htext, byteSize_append, Extent.mk.injEq, and_true]
    omega
  | startStyling pos =>
    cases h
    rw [extent, startStyling, hb]
    rfl
  | setStyling length style =>
    obtain ⟨-, -, rfl⟩ := setStyling_eq_ok_iff.1 h
    rw [hb]
    rfl

/-- An act that can be asked for fails only where it paints from behind the text. -/
theorem Sound.exists_perform_iff (hb : b.Sound) (hfits : act.Fits b) :
    (∃ b', b.perform act = .ok b') ↔ b.extent.PaintsInside act := by
  cases act with
  | new text => exact ⟨fun _ => trivial, fun _ => ⟨_, rfl⟩⟩
  | edit start stop inserted =>
    obtain ⟨hle, hstart, hstop⟩ := hfits
    obtain ⟨before, removed, after, htext, rfl, rfl⟩ := exists_middle hstart hstop hle
    rw [← List.append_assoc] at htext
    exact ⟨fun _ => trivial, fun _ =>
      ⟨_, edit_eq_ok_iff.2 ⟨before, removed, after, htext, rfl, rfl, rfl⟩⟩⟩
  | startStyling pos => exact ⟨fun _ => trivial, fun _ => ⟨_, rfl⟩⟩
  | setStyling length style =>
    have hlength : b.styles.length = b.size := hb
    constructor
    · rintro ⟨b', h⟩
      have hle := (setStyling_eq_ok_iff.1 h).2.1
      rwa [hlength] at hle
    · intro hle
      refine ⟨_, setStyling_eq_ok_iff.2 ⟨hfits, ?_, rfl⟩⟩
      rwa [hlength]

/-- Only an edit takes the cursor out of the text. -/
theorem Sound.inside_perform_iff (hb : b.Sound) (h : b.perform act = .ok b') :
    b'.Inside ↔ b.extent.KeepsCursor act := by
  have hextent := hb.extent_perform h
  have hiff : b'.Inside ↔ (b.extent.after act).cursor ≤ (b.extent.after act).size := by
    rw [← hextent]
    rfl
  rw [hiff]
  cases act with
  | new text => exact ⟨fun _ => trivial, fun _ => Nat.zero_le _⟩
  | edit start stop inserted => exact Iff.rfl
  | startStyling pos => exact ⟨fun _ => trivial, fun _ => Nat.min_le_right _ _⟩
  | setStyling length style => exact ⟨fun _ => trivial, fun _ => Nat.min_le_right _ _⟩

theorem Inside.paintsInside (h : b.Inside) (act : Act) : b.extent.PaintsInside act := by
  cases act with
  | setStyling length style => exact h
  | new text => trivial
  | edit start stop inserted => trivial
  | startStyling pos => trivial

end

/-! ### What is painted -/

/-- The bytes of a range have got one style, and nothing else has changed but the cursor. -/
structure Paints (b b' : Buffer) (first last : Nat) (style : Style) : Prop where
  text : b'.text = b.text
  within : ∀ pos, first ≤ pos → pos < last → b'.styleAt pos = some style
  around : ∀ pos, pos < first ∨ last ≤ pos → b'.styleAt pos = b.styleAt pos

theorem paints_of_styles {b b' : Buffer} {first last : Nat} {style : Style} (hle : first ≤ last)
    (hlast : last ≤ b.styles.length) (htext : b'.text = b.text)
    (hstyles : b'.styles = b.styles.take first ++ List.replicate (last - first) (some style) ++
      b.styles.drop last) : Paints b b' first last style := by
  have hfront : (b.styles.take first).length = first := List.length_take_of_le (by omega)
  have hpainted : (b.styles.take first ++
      List.replicate (last - first) (some style)).length = last := by
    rw [List.length_append, hfront, List.length_replicate]
    omega
  refine ⟨htext, fun pos hpos hpos' => ?_, ?_⟩
  · rw [styleAt, hstyles, List.getElem?_append_left (by omega),
      List.getElem?_append_right (by omega), List.getElem?_replicate, if_pos (by omega)]
    rfl
  · rintro pos (hbefore | hbehind)
    · rw [styleAt, styleAt, hstyles, List.append_assoc, List.getElem?_append_left (by omega),
        List.getElem?_take_of_lt hbefore]
    · rw [styleAt, styleAt, hstyles, List.getElem?_append_right (by omega), hpainted,
        List.getElem?_drop, Nat.add_sub_of_le hbehind]

/-- There is one style for each byte, the text and the cursor have changed as their numbers say, and
painting has painted from the cursor on a number of bytes, or those that are left. -/
structure Step.Exact (step : Step) : Prop where
  sound : step.after.Sound
  extent : step.after.extent = step.before.extent.after step.act
  paints : ∀ length style, step.act = .setStyling length style →
    Paints step.before step.after step.before.cursor
      (min (step.before.cursor + length) step.before.size) style

/-- **What is done to the styles is right**, wherever the cursor is. -/
theorem Sound.exact {b b' : Buffer} {act : Act} (hb : b.Sound) (h : b.perform act = .ok b') :
    Step.Exact ⟨b, act, b'⟩ := by
  refine ⟨hb.perform h, hb.extent_perform h, ?_⟩
  rintro length style rfl
  obtain ⟨-, hle, rfl⟩ := setStyling_eq_ok_iff.1 h
  have hlength : b.styles.length = b.size := hb
  refine paints_of_styles ?_ ?_ rfl ?_
  · exact Nat.le_min.2 ⟨Nat.le_add_right _ _, hlength ▸ hle⟩
  · exact hlength ▸ Nat.min_le_right _ _
  · rw [hlength]

/-! ### Several acts -/

theorem Sound.exact_of_script {b : Buffer} {acts : List Act} {steps : List Step} (hb : b.Sound)
    (h : b.script acts = .ok steps) : ∀ step ∈ steps, step.Exact := by
  induction acts generalizing b steps with
  | nil =>
    cases h
    exact fun step hstep => absurd hstep List.not_mem_nil
  | cons act acts ih =>
    obtain ⟨b', rest, hact, hrest, rfl⟩ := script_cons_eq_ok_iff.1 h
    exact List.forall_mem_cons.2 ⟨hb.exact hact, ih (hb.perform hact) hrest⟩

/-- **From one act to a script.** Where an act can be done as it should exactly if it has a
property, a script can exactly if all its acts have it. -/
theorem exists_script_iff {inv : Buffer → Prop} {good : Step → Prop} {p : Extent → Act → Prop}
    (hstep : ∀ b act, inv b → act.Fits b →
      ((∃ b', b.perform act = .ok b' ∧ good ⟨b, act, b'⟩) ↔ p b.extent act))
    (hnext : ∀ b act b', inv b → b.perform act = .ok b' → good ⟨b, act, b'⟩ →
      inv b' ∧ b'.extent = b.extent.after act)
    {b : Buffer} {acts : List Act} (hb : inv b) (h : Valid b acts) :
    (∃ steps, b.script acts = .ok steps ∧ ∀ step ∈ steps, good step) ↔
      Extent.Along p b.extent acts := by
  -- on the acts: `inv` holds of the buffer that each of them leaves, and its extent is known
  induction acts generalizing b with
  | nil => exact ⟨fun _ => trivial, fun _ => ⟨[], rfl, List.forall_mem_nil _⟩⟩
  | cons act acts ih =>
    obtain ⟨hfits, hrest⟩ := h
    constructor
    · rintro ⟨steps, hsteps, hgood⟩
      obtain ⟨b', rest, hact, hscript, rfl⟩ := script_cons_eq_ok_iff.1 hsteps
      obtain ⟨hfirst, hgood⟩ := List.forall_mem_cons.1 hgood
      obtain ⟨hb', hextent⟩ := hnext b act b' hb hact hfirst
      refine ⟨(hstep b act hb hfits).1 ⟨b', hact, hfirst⟩, ?_⟩
      rw [← hextent]
      exact (ih hb' (hrest b' hact)).1 ⟨rest, hscript, hgood⟩
    · rintro ⟨hp, halong⟩
      obtain ⟨b', hact, hfirst⟩ := (hstep b act hb hfits).2 hp
      obtain ⟨hb', hextent⟩ := hnext b act b' hb hact hfirst
      rw [← hextent] at halong
      obtain ⟨rest, hscript, hgood⟩ := (ih hb' (hrest b' hact)).2 halong
      exact ⟨_, script_cons_eq_ok_iff.2 ⟨b', rest, hact, hscript, rfl⟩,
        List.forall_mem_cons.2 ⟨hfirst, hgood⟩⟩

/-- A script is carried out, and rightly, exactly if it never paints from behind the text. -/
theorem Sound.exists_script_exact_iff {b : Buffer} {acts : List Act} (hb : b.Sound)
    (h : Valid b acts) :
    (∃ steps, b.script acts = .ok steps ∧ ∀ step ∈ steps, step.Exact) ↔
      Extent.Along Extent.PaintsInside b.extent acts := by
  refine @exists_script_iff Sound Step.Exact Extent.PaintsInside ?_ ?_ b acts hb h
  · intro b act hb hfits
    rw [← hb.exists_perform_iff hfits]
    exact exists_congr fun b' => and_iff_left_of_imp hb.exact
  · exact fun b act b' hb hact _ => ⟨hb.perform hact, hb.extent_perform hact⟩

/-- It keeps the cursor in the text exactly if each of its edits does. -/
theorem Sound.exists_script_inside_iff {b : Buffer} {acts : List Act} (hb : b.Sound)
    (hin : b.Inside) (h : Valid b acts) :
    (∃ steps, b.script acts = .ok steps ∧ ∀ step ∈ steps, step.after.Inside) ↔
      Extent.Along Extent.KeepsCursor b.extent acts := by
  refine @exists_script_iff (fun b => b.Sound ∧ b.Inside) (fun step => step.after.Inside)
    Extent.KeepsCursor ?_ ?_ b acts ⟨hb, hin⟩ h
  · rintro b act ⟨hb, hin⟩ hfits
    constructor
    · rintro ⟨b', hact, hin'⟩
      exact (hb.inside_perform_iff hact).1 hin'
    · intro hkeeps
      obtain ⟨b', hact⟩ := (hb.exists_perform_iff hfits).2 (hin.paintsInside act)
      exact ⟨b', hact, (hb.inside_perform_iff hact).2 hkeeps⟩
  · rintro b act b' ⟨hb, -⟩ hact hin'
    exact ⟨⟨hb.perform hact, hin'⟩, hb.extent_perform hact⟩

/-- **The cursor stays in the text if and only if no edit leaves fewer bytes than lie before it.**
A script of acts is carried out if and only if it never paints from behind the text. Whatever is
carried out keeps one style for each byte and paints what it is said to. -/
theorem script_inside_iff {text : Text} {acts : List Act} (h : Valid (ofText text) acts) :
    ((∃ steps, (ofText text).script acts = .ok steps ∧ steps.map Step.act = acts ∧
        ∀ step ∈ steps, step.Exact ∧ step.after.Inside) ↔
      Extent.Along Extent.KeepsCursor ⟨byteSize text, 0⟩ acts) ∧
    ((∃ steps, (ofText text).script acts = .ok steps) ↔
      Extent.Along Extent.PaintsInside ⟨byteSize text, 0⟩ acts) ∧
    ∀ steps, (ofText text).script acts = .ok steps → ∀ step ∈ steps, step.Exact := by
  have hsound := sound_ofText text
  have hinside : (ofText text).Inside := Nat.zero_le _
  refine ⟨?_, ?_, fun steps hsteps => hsound.exact_of_script hsteps⟩
  · refine Iff.trans ?_ (hsound.exists_script_inside_iff hinside h)
    constructor
    · rintro ⟨steps, hsteps, -, hgood⟩
      exact ⟨steps, hsteps, fun step hstep => (hgood step hstep).2⟩
    · rintro ⟨steps, hsteps, hin⟩
      exact ⟨steps, hsteps, map_act_of_script hsteps, fun step hstep =>
        ⟨hsound.exact_of_script hsteps step hstep, hin step hstep⟩⟩
  · refine Iff.trans ?_ (hsound.exists_script_exact_iff h)
    exact exists_congr fun steps => (and_iff_left_of_imp hsound.exact_of_script).symm

/-- An edit that leaves just the bytes before the cursor, one that puts a longer character there,
painting past the end, and another text. -/
theorem script_inside_iff_up_to_cursor :
    ∃ acts : List Act,
      acts = [.startStyling 1, .edit 1 2 [], .setStyling 5 .tag, .edit 0 1 "é".toList,
        .setStyling Size.max.pred .comment, .new "x".toList, .setStyling 1 .tag] ∧
      Valid (ofText "ab".toList) acts ∧
      Extent.Along Extent.KeepsCursor ⟨byteSize "ab".toList, 0⟩ acts ∧
      ∃ steps, (ofText "ab".toList).script acts = .ok steps ∧ steps.map Step.act = acts ∧
        ∀ step ∈ steps, step.Exact ∧ step.after.Inside := by
  have hvalid : Valid (ofText "ab".toList) [.startStyling 1, .edit 1 2 [], .setStyling 5 .tag,
      .edit 0 1 "é".toList, .setStyling Size.max.pred .comment, .new "x".toList,
      .setStyling 1 .tag] := by
    decide
  have hkeeps : Extent.Along Extent.KeepsCursor ⟨byteSize "ab".toList, 0⟩ [.startStyling 1,
      .edit 1 2 [], .setStyling 5 .tag, .edit 0 1 "é".toList, .setStyling Size.max.pred .comment,
      .new "x".toList, .setStyling 1 .tag] := by
    decide
  exact ⟨_, rfl, hvalid, hkeeps, (script_inside_iff hvalid).1.2 hkeeps⟩

/-- Once the cursor is moved back, an edit that has left it behind does no harm. -/
example :
    Extent.Along Extent.PaintsInside ⟨2, 0⟩
        [.startStyling 2, .edit 0 1 [], .startStyling 2, .setStyling 1 .tag] ∧
      ¬ Extent.Along Extent.PaintsInside ⟨2, 0⟩
        [.startStyling 2, .edit 0 1 [], .setStyling 1 .tag] := by
  decide

/-- A byte is taken away with the cursor at the end of the text. Not even an empty range can be
painted then. -/
theorem cursor_behind_text :
    ∃ (acts : List Act) (b : Buffer), acts = [.startStyling 2, .edit 0 1 [], .setStyling 0 .tag] ∧
      Valid (ofText "ab".toList) acts ∧
      ((ofText "ab".toList).startStyling 2).edit 0 1 [] = .ok b ∧ b.cursor = 2 ∧ b.size = 1 ∧
      (ofText "ab".toList).script acts = .error .badPosition :=
  ⟨_, _, rfl, by decide, rfl, rfl, rfl, by decide⟩

end TemplateStyler.Buffer
