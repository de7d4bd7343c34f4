import TemplateStyler.Directive.Basic
import TemplateStyler.Event

/-!
# Hiding directives

A formatter of scripts does not know directives. They are hidden from it: each directive line gives
way to a line with a sentinel, an identifier that the script language accepts, and waits in a queue.
Afterwards the sentinel lines give way to the directives again, in order and with the indentation
that the formatter chose.

* `Queue.substitute` hides the directives of a text.
* `Queue.restore` puts them back. It refuses a text that has not as many sentinel lines as
  directives wait; the queue is empty afterwards in any case.
-/

namespace TemplateStyler

/-- Directives that wait behind a sentinel. -/
structure Queue where
  /-- The identifier that stands for a directive. -/
  sentinel : Text
  waiting : List Text := []
  deriving DecidableEq, Repr, Inhabited

namespace Queue

open Text Directive

/-- The sentinel where no other one is asked for. -/
def usualSentinel : String := "__PTYX_LET_DIRECTIVE__"

/-- A line with its directive hidden; other lines stay. -/
def hide (sentinel line : Text) : Text :=
  if isDirectiveLine line then indentation line ++ sentinel else line

/-- The directive of a line, without indentation and trailing white space. -/
def directive (line : Text) : Text := trimEnd (line.drop (indentation line).length)

/-- The text with its directives hidden, and the queue with them at its end. -/
def substitute (q : Queue) (text : Text) : Text × Queue :=
  let found := ((lines text).map content).filter isDirectiveLine
  (mapLines (hide q.sentinel) text, { q with waiting := q.waiting ++ found.map directive })

/-- Whether a line without its ending is a sentinel line. -/
def isSentinelLine (sentinel line : Text) : Bool := trim line == sentinel

/-- What putting directives back into lines gives. -/
structure Restored where
  text : Text
  /-- The directives for which there was no sentinel line. -/
  leftOver : List Text
  /-- Whether there was a sentinel line without a directive. -/
  missing : Bool
  deriving DecidableEq, Repr, Inhabited

/-- Lines with directives put back in place of sentinel lines, as long as there are some. -/
def restoreLines (sentinel : Text) : List Text → List Text → Restored
  | waiting, [] => ⟨[], waiting, false⟩
  | waiting, l :: ls =>
    if isSentinelLine sentinel (content l) then
      match waiting with
      | d :: ds =>
        let r := restoreLines sentinel ds ls
        { r with text := indentation (content l) ++ normalize d ++ ending l ++ r.text }
      | [] =>
        let r := restoreLines sentinel [] ls
        { r with text := l ++ r.text, missing := true }
    else
      let r := restoreLines sentinel waiting ls
      { r with text := l ++ r.text }

/-- The text with the waiting directives put back, the empty queue, and what went wrong. -/
def restore (q : Queue) (text : Text) : Option Text × Queue × List Event :=
  let r := restoreLines q.sentinel q.waiting (lines text)
  let empty := { q with waiting := [] }
  if r.missing || !r.leftOver.isEmpty then
    (none, empty, [.sentinelMismatch r.leftOver.length r.missing])
  else (some r.text, empty, [])

end Queue

end TemplateStyler
