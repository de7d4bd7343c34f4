import TemplateStyler.Fault
import TemplateStyler.Json.Value

/-!
# Diagnostics

A diagnostic is a problem with its place in a document. Lines and columns count from zero.

* `Diagnostic.shift` moves a problem down by a number of lines, as far as lines go.
* `Diagnostic.display` writes it for a reader, who counts lines and columns from one.
* `Diagnostic.inOrder` sorts problems by their place and keeps the order of those at one place.
-/

namespace TemplateStyler

/-- A problem with its place in a document. -/
structure Diagnostic where
  message : List Char
  startLine : Nat
  startColumn : Nat
  stopLine : Nat
  stopColumn : Nat
  /-- The rule of the checker that was broken, where there is one. -/
  code : Option (List Char)
  deriving DecidableEq, Repr, Inhabited

namespace Diagnostic

/-- A problem on one line. -/
def onLine (line start stop : Nat) (message : List Char) : Diagnostic where
  message := message
  startLine := line
  startColumn := start
  stopLine := line
  stopColumn := stop
  code := none

/-- The problem moved down by a number of lines. -/
def shift (d : Diagnostic) (lines : Nat) : Except Fault Diagnostic := do
  return { d with
    startLine := ← Size.add d.startLine lines
    stopLine := ← Size.add d.stopLine lines }

/-- The line, the column, the rule and the message of a problem. -/
def display (d : Diagnostic) : Except Fault (List Char) := do
  let line ← Size.add d.startLine 1
  let column ← Size.add d.startColumn 1
  let code := match d.code with
    | some code => code ++ [' ']
    | none => []
  return (toString line ++ ":" ++ toString column ++ ": ").toList ++ code ++ d.message

/-- Whether a problem starts at the place of another one or before it. -/
def startsBy (a b : Diagnostic) : Bool :=
  a.startLine < b.startLine || (a.startLine == b.startLine && a.startColumn ≤ b.startColumn)

/-- Problems by their place, those at one place in the order in which they were. -/
def inOrder (ds : List Diagnostic) : List Diagnostic := ds.mergeSort startsBy

/-- A problem as data. -/
def toJson (d : Diagnostic) : Json :=
  .ofMembers [("message", .ofText d.message), ("start_line", .ofNat d.startLine),
    ("start_column", .ofNat d.startColumn), ("end_line", .ofNat d.stopLine),
    ("end_column", .ofNat d.stopColumn),
    ("code", match d.code with
      | some code => .ofText code
      | none => .null)]

end Diagnostic

end TemplateStyler
