import TemplateStyler.Styler.Marks
import TemplateStyler.Styler.Trace
import TemplateStyler.Text.Lines

/-!
# The styler

A styler paints ranges of a text that changes between requests, without starting over each time. It
remembers two kinds of states at line starts: the states of the text as it is now (`checkpoints`),
from which a request resumes, and the states from which the styles that an editor shows were painted
(`painted`), which stay after an edit and move with the text. Comparing the two at the end of a
range tells whether the text after it has to be painted again.

* `Styler.style` paints a range. A `Pass` holds its spans, the state after it, and the position from
  which painting has to go on, where it has to.
* `Styler.edited` and `Styler.forgetFrom` tell the styler about an edit.
* `Styler.styleText` paints a whole text from scratch.
-/

namespace TemplateStyler

/-- What was learned about a text by styling parts of it. -/
structure Styler where
  registry : Registry
  grammar : Grammar
  /-- States at line starts of the present text. -/
  checkpoints : Marks := {}
  /-- States from which the shown styles after line starts were painted. -/
  painted : Marks := {}
  deriving DecidableEq, Repr, Inhabited

/-- The result of styling a range. -/
structure Pass where
  /-- The byte position of the first span. -/
  start : Nat
  spans : List Span
  /-- The state after the last lexeme of the range. -/
  endState : State
  /-- Where the text after the range may be painted from another state, the position to go on at. -/
  restyleFrom : Option Nat
  deriving DecidableEq, Repr, Inhabited

namespace Styler

/-- A styler that knows nothing of a text yet. -/
def ofRegistry (r : Registry) : Styler := { registry := r, grammar := r.grammar }

/-- The state marked at a line start of the present text. -/
def checkpoint? (st : Styler) (pos : Nat) : Option State := st.checkpoints.get? pos

/-- The styler with every state after a position forgotten. -/
def forgetFrom (st : Styler) (pos : Nat) : Styler :=
  { st with
    checkpoints := st.checkpoints.below (Size.addCapped pos 1)
    painted := st.painted.below pos }

/-- The styler after the text between two positions was replaced by a number of bytes. -/
def edited (st : Styler) (start stop inserted : Nat) : Except Fault Styler := do
  return { st with
    checkpoints := st.checkpoints.below (Size.addCapped start 1)
    painted := ← st.painted.shift start (max stop start) inserted }

/-- The last line start, at or before the line of a position, whose state is known. -/
def seed (st : Styler) (text : Text) (pos : Nat) : Nat × State :=
  (st.checkpoints.nearest? (Text.lineStart text pos)).getD (0, .initial)

/-- The pass over a range of a text, and the styler after it. Both ends are lowered to positions of
the text, the first one to the second. -/
def style (st : Styler) (text : Text) (start stop : Nat) : Except Fault (Pass × Styler) := do
  let size := Text.byteSize text
  let stop := Text.floorBoundary text stop
  let start := Text.floorBoundary text (min start stop)
  let (resume, state) := st.seed text start
  let lexemes ← st.grammar.lexemes text resume size
  let trace ← st.registry.trace state (lexemes.takeWhile (·.start < stop))
  let first := if Text.lineStart text start = start then
    (trace.find? (·.lexeme.start == start)).map fun e => (start, e.before) else none
  let inside := trace.lineStarts.filter fun m => start < m.1 && m.1 < stop
  let settled := trace.lineStarts.any fun m => m.1 == stop && st.painted.get? stop == some m.2
  let pass : Pass :=
    { start
      spans := trace.spans start stop
      endState := trace.endState state
      restyleFrom := if start < stop ∧ stop < size ∧ ¬ settled then some stop else none }
  return (pass,
    { st with
      checkpoints := trace.lineStarts.foldl (fun m e => m.insert e.1 e.2) st.checkpoints
      painted := (first.toList ++ inside).foldl (fun m e => m.insert e.1 e.2) st.painted })

/-- The spans of a whole text, styled from scratch, and the styler after it. -/
def styleText (st : Styler) (text : Text) : Except Fault (List Span × Styler) := do
  let fresh := { st with checkpoints := {}, painted := {} }
  let (pass, st) ← fresh.style text 0 (Text.byteSize text)
  return (pass.spans, st)

end Styler

/-- The spans of a template, styled from scratch with the names of a registry. -/
def Registry.styleText (r : Registry) (text : Text) : Except Fault (List Span) := do
  return (← (Styler.ofRegistry r).styleText text).1

end TemplateStyler
