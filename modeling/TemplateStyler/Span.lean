import TemplateStyler.Fault
import TemplateStyler.Style.Basic

/-!
# Spans

A span is a number of bytes painted in one style. A list of spans paints a stretch of text from left
to right.

* `Span.merge` joins neighbours of one style. It keeps the style of every byte, since it only adds
  up lengths of equal style; it fails where a sum is no size.
-/

namespace TemplateStyler

/-- A number of bytes painted in one style. -/
structure Span where
  length : Nat
  style : Style
  deriving DecidableEq, Repr, Inhabited

namespace Span

/-- The number of bytes that spans paint. -/
def total : List Span → Nat
  | [] => 0
  | span :: spans => span.length + total spans

/-- One more span after spans without neighbours of one style, the last of them first. -/
def push (merged : List Span) (span : Span) : Except Fault (List Span) :=
  match merged with
  | last :: before =>
    if last.style = span.style then do
      return ⟨← Size.add last.length span.length, last.style⟩ :: before
    else .ok (span :: merged)
  | [] => .ok [span]

/-- The spans with neighbours of one style joined. -/
def merge (spans : List Span) : Except Fault (List Span) := do
  return (← spans.foldlM push []).reverse

end Span

end TemplateStyler
