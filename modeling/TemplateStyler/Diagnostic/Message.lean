import TemplateStyler.Diagnostic.Basic
import TemplateStyler.Json.Read
import TemplateStyler.Text.Basic

/-!
# Messages of a checker

A checker reports on a text as a JSON array of messages. A message is an object with a message, a
place where the problem starts, a place where it ends, and perhaps the rule that was broken; a place
is an object with a row and a column, which count from one. Members with other names are skipped, a
name may not come twice, and instead of an object there may be the array of its members in their
fixed order.

* `Message.readAll?` reads a report. A report of nothing but white space has no messages.
* `Message.toDiagnostic` places a message on the document that holds the text.
-/

namespace TemplateStyler

/-- A row and a column of a text, counted from one. -/
structure Location where
  row : Nat
  column : Nat
  deriving DecidableEq, Repr, Inhabited

/-- A message of a checker. -/
structure Message where
  code : Option (List Char)
  message : List Char
  start : Location
  stop : Location
  deriving DecidableEq, Repr, Inhabited

namespace Json

/-- The text that a string is. -/
def asText? : Json → Option (List Char)
  | .string pieces => text? pieces
  | _ => none

/-- The text that a string is, or nothing for the null value. -/
def asTextOrNull? : Json → Option (Option (List Char))
  | .null => some none
  | v => (asText? v).map some

/-- The size that a number is. -/
def asSize? : Json → Option Nat
  | .number digits => (Text.decimal? digits).filter (· < Size.bound)
  | _ => none

/-- The members of a record with given names, in the order of these: each member that is there,
once, by its name in an object or by its place in an array. -/
def fields? (names : List String) : Json → Option (List (Option Json))
  | .array items =>
    if items.length ≤ names.length then
      some (items.map some ++ List.replicate (names.length - items.length) none)
    else none
  | .object members => do
    let named ← members.mapM fun m => do return ((← text? m.1), m.2)
    names.mapM fun name =>
      match named.filter (·.1 == name.toList) with
      | [] => some none
      | [m] => some (some m.2)
      | _ => none
  | _ => none

end Json

/-- The place that a value is. -/
def Location.ofJson? (v : Json) : Option Location := do
  match ← v.fields? ["row", "column"] with
  | [some row, some column] => return ⟨← row.asSize?, ← column.asSize?⟩
  | _ => none

namespace Message

/-- The message that a value is. -/
def ofJson? (v : Json) : Option Message := do
  match ← v.fields? ["code", "message", "location", "end_location"] with
  | [code, some message, some start, some stop] =>
    return {
      code := ← match code with
        | some code => code.asTextOrNull?
        | none => some none
      message := ← message.asText?
      start := ← Location.ofJson? start
      stop := ← Location.ofJson? stop }
  | _ => none

/-- The messages of a report. -/
def readAll? (report : List Char) : Option (List Message) :=
  if report.all Text.isSpace then some []
  else do
    match ← Json.read? report with
    | .array items => items.mapM ofJson?
    | _ => none

/-- The problem that a message tells of, on a document in which the line before the text has an
index. -/
def toDiagnostic (m : Message) (lineBefore : Nat) : Except Fault Diagnostic :=
  Diagnostic.shift
    { message := m.message
      startLine := m.start.row
      startColumn := m.start.column - 1
      stopLine := m.stop.row
      stopColumn := m.stop.column - 1
      code := m.code }
    lineBefore

end Message

end TemplateStyler
