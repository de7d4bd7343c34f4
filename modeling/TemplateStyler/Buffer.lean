import TemplateStyler.Span
import TemplateStyler.Text.Basic

/-!
# Buffers

A buffer holds a text and, for each of its bytes, the style that was painted there. A cursor marks
where painting goes on.

* `edit` replaces a part of the text; what it inserts is unpainted, what follows keeps its styles.
* `startStyling` moves the cursor, `setStyling` paints from it and moves it past what it painted.
-/

namespace TemplateStyler

/-- A text with a style per byte and a cursor. -/
structure Buffer where
  text : Text := []
  /-- The style of each byte, where one was painted. -/
  styles : List (Option Style) := []
  /-- The byte from which painting goes on. -/
  cursor : Nat := 0
  deriving DecidableEq, Repr, Inhabited

namespace Buffer

/-- The buffer of a text on which nothing is painted. -/
def ofText (text : Text) : Buffer where
  text := text
  styles := List.replicate (Text.byteSize text) none

/-- The number of bytes of the text. -/
def size (b : Buffer) : Nat := Text.byteSize b.text

/-- The style of one byte, where one was painted. -/
def styleAt (b : Buffer) (pos : Nat) : Option Style := (b.styles[pos]?).join

/-- The styles of the bytes between two positions. -/
def stylesBetween (b : Buffer) (start stop : Nat) : Except Fault (List (Option Style)) :=
  if start ≤ stop ∧ stop ≤ b.styles.length then .ok ((b.styles.take stop).drop start)
  else .error .badPosition

/-- The buffer with the text between two positions replaced. The inserted bytes are unpainted; the
cursor stays where it was. -/
def edit (b : Buffer) (start stop : Nat) (inserted : Text) : Except Fault Buffer := do
  if stop < start then throw .badPosition
  let (upTo, after) ← Text.cut b.text stop
  let (before, _) ← Text.cut upTo start
  return { b with
    text := before ++ inserted ++ after
    styles := b.styles.take start ++ List.replicate (Text.byteSize inserted) none
      ++ b.styles.drop stop }

/-- The buffer with the cursor moved to a byte, or to the end of the text. -/
def startStyling (b : Buffer) (pos : Nat) : Buffer :=
  { b with cursor := min pos b.styles.length }

/-- The buffer with a number of bytes from the cursor painted, up to the end of the text. -/
def setStyling (b : Buffer) (length : Nat) (style : Style) : Except Fault Buffer := do
  let stop := min (← Size.add b.cursor length) b.styles.length
  if stop < b.cursor then throw .badPosition
  return { b with
    styles := b.styles.take b.cursor ++ List.replicate (stop - b.cursor) (some style)
      ++ b.styles.drop stop
    cursor := stop }

/-- The buffer with spans painted from a byte on. -/
def paint (b : Buffer) (start : Nat) (spans : List Span) : Except Fault Buffer :=
  spans.foldlM (fun b span => b.setStyling span.length span.style) (b.startStyling start)

end Buffer

end TemplateStyler
