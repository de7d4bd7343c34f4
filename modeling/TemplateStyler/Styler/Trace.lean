import TemplateStyler.Lexeme.Scan
import TemplateStyler.Span
import TemplateStyler.State.Step

/-!
# Traces

A trace is a run of lexemes with the state before and after each of them. All that styling a range
gives is read off a trace: the spans, the states at line starts, and the last state.

* `Registry.trace` makes the trace of lexemes from a state.
* `Trace.spans` paints a range. A lexeme that sticks out of the range is painted inside it only. The
  lexemes of a string wait until the string ends: if it ends unclosed, they are all painted so.
* `Trace.lineStarts` lists the states at the line starts of a trace.
-/

namespace TemplateStyler

/-- A lexeme with the states around it. -/
structure Entry where
  lexeme : Lexeme
  before : State
  after : State
  deriving DecidableEq, Repr, Inhabited

/-- The lexemes of a stretch of text with the states around them. -/
abbrev Trace := List Entry

/-- The trace of lexemes from a state. -/
def Registry.trace (r : Registry) : State → List Lexeme → Except Fault Trace
  | _, [] => .ok []
  | s, l :: ls => do
    let next ← r.step l.text s
    return ⟨l, s, next⟩ :: (← r.trace next ls)

namespace Entry

/-- The part of an entry inside a range, in the style of its lexeme; nothing where it lies outside.
-/
def clip (start stop : Nat) (e : Entry) : List Span :=
  let low := max e.lexeme.start start
  let high := min e.lexeme.stop stop
  if low < high then [⟨high - low, e.after.style⟩] else []

end Entry

namespace Trace

/-- Spans painted as an unclosed string. -/
def unclosed (spans : List Span) : List Span :=
  spans.map fun span => { span with style := .unclosedString }

/-- The spans of a range, after the spans of a string that is still open. -/
def spansAfter (start stop : Nat) (waiting : List Span) : Trace → List Span
  | [] => waiting
  | e :: rest =>
    let waiting := waiting ++ e.clip start stop
    if e.after.mode = .string then spansAfter start stop waiting rest
    else
      (if e.after.style = .unclosedString then unclosed waiting else waiting)
        ++ spansAfter start stop [] rest

/-- The spans of a range. -/
def spans (start stop : Nat) (t : Trace) : List Span := spansAfter start stop [] t

/-- The positions of a trace at which lines start, with the states there. -/
def lineStarts (t : Trace) : List (Nat × State) :=
  (t.filter (·.lexeme.endsLine)).map fun e => (e.lexeme.stop, e.after)

/-- The state after a trace that starts from a given one. -/
def endState (s : State) (t : Trace) : State := (t.getLast?.map Entry.after).getD s

end Trace

end TemplateStyler
