import TemplateStyler.Json.Write
import TemplateStyler.Registry.Stock
import TemplateStyler.Styler.Basic
import TemplateStyler.Text.Quoted
import TemplateStyler.Yaml.Scalar

/-!
# Records of spans

A record is a span with its place in the text and the text that it covers.

* `Record.ofSpans` are the records of spans that start at a byte position.
* `Record.ofSlice` are the records of a part of a text, styled on its own request.
* `Record.simple`, `Record.json` and `Record.yaml` write records.
-/

namespace TemplateStyler

/-- A span with its place and its text. -/
structure Record where
  start : Nat
  length : Nat
  style : Style
  text : Text
  deriving DecidableEq, Repr, Inhabited

namespace Record

/-- The records of spans from a byte position on. -/
def ofSpans (text : Text) (start : Nat) : List Span → List Record
  | [] => []
  | span :: spans =>
    ⟨start, span.length, span.style,
      (Text.slice? text start (start + span.length)).getD []⟩ ::
      ofSpans text (start + span.length) spans

/-- The records of a part of a text, styled with the names of a registry, with neighbours of one
style joined where this is asked for. -/
def ofSlice (r : Registry) (text : Text) (start stop : Nat) (merged : Bool) :
    Except Fault (List Record) := do
  let (pass, _) ← (Styler.ofRegistry r).style text start stop
  return ofSpans text pass.start (← if merged then Span.merge pass.spans else pure pass.spans)

/-! ### Writing -/

/-- One line for each record: its place, its length, its style and its text in quotes. -/
def simple (records : List Record) : Text :=
  records.flatMap fun r =>
    (toString r.start ++ "\t" ++ toString r.length ++ "\t" ++ r.style.title ++ "\t").toList ++
      Text.quoted r.text ++ ['\n']

/-- The records as a JSON array. -/
def json (records : List Record) : Text :=
  Json.pretty (.array (records.map fun r => .ofMembers
    [("start", .ofNat r.start), ("len", .ofNat r.length), ("style", .ofString r.style.name),
     ("mode", .ofString r.style.mode.name), ("text", .ofText r.text)]))

/-- The records as a YAML sequence. -/
def yaml (records : List Record) : Text :=
  if records.isEmpty then "[]\n".toList
  else records.flatMap fun r =>
    ("- start: " ++ toString r.start ++ "\n  len: " ++ toString r.length ++ "\n  style: "
      ++ r.style.name ++ "\n  mode: " ++ r.style.mode.name ++ "\n  text: ").toList
      ++ Yaml.scalarLine 4 r.text

end Record

end TemplateStyler
