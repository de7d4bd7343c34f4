import TemplateStyler.Buffer
import TemplateStyler.Styler.Basic

/-!
# Sessions

A session pairs a styler with the buffer that it paints, as an editor does. Edits of the buffer and
reports of edits to the styler are separate acts.

* `Session.style` styles a range and paints it.
* `Session.settle` goes on from line to line as long as the styler asks for it. It ends, because
  every pass begins where the one before it ended.
-/

namespace TemplateStyler

/-- A styler and the buffer that it paints. -/
structure Session where
  styler : Styler
  buffer : Buffer
  deriving DecidableEq, Repr, Inhabited

namespace Session

/-- A new session on a text. -/
def ofText (r : Registry) (text : Text) : Session := ⟨.ofRegistry r, .ofText text⟩

/-- The pass over a range, painted into the buffer. -/
def style (s : Session) (start stop : Nat) : Except Fault (Pass × Session) := do
  let (pass, styler) ← s.styler.style s.buffer.text start stop
  return (pass, ⟨styler, ← s.buffer.paint pass.start pass.spans⟩)

/-- The passes from a position to the end of its line and on, line by line, as long as the styler
asks for it and the next position lies further on. -/
def settleFrom (text : Text) (styler : Styler) (buffer : Buffer) (pos : Nat) :
    Except Fault (List Pass × Session) := do
  let (pass, styler) ← styler.style text pos (Text.nextLineStart text pos)
  let buffer ← buffer.paint pass.start pass.spans
  match pass.restyleFrom with
  | some next =>
    if pos < next ∧ next < Text.byteSize text then do
      let (passes, s) ← settleFrom text styler buffer next
      return (pass :: passes, s)
    else return ([pass], ⟨styler, buffer⟩)
  | none => return ([pass], ⟨styler, buffer⟩)
termination_by Text.byteSize text - pos

/-- The pass over a range and the passes that it asks for. -/
def settle (s : Session) (start stop : Nat) : Except Fault (List Pass × Session) := do
  let (pass, s) ← s.style start stop
  match pass.restyleFrom with
  | some pos =>
    let (passes, s) ← settleFrom s.buffer.text s.styler s.buffer pos
    return (pass :: passes, s)
  | none => return ([pass], s)

/-- The session with the buffer edited; the styler is not told. -/
def edit (s : Session) (start stop : Nat) (inserted : Text) : Except Fault Session := do
  return { s with buffer := ← s.buffer.edit start stop inserted }

/-- The session with the styler told of an edit. -/
def edited (s : Session) (start stop inserted : Nat) : Except Fault Session := do
  return { s with styler := ← s.styler.edited start stop inserted }

end Session

end TemplateStyler
