import TemplateStyler.Text.Basic

/-!
# Lines

A line runs to its newline and keeps it; only the last line of a text can lack one.

* `lines` loses nothing: the lines make up the text (`flatten_lines`).
* `content` is a line without the carriage returns and newlines at its end, `ending` is what
  `content` leaves out.
-/

namespace TemplateStyler.Text

/-- The lines of a text, each with its newline. -/
def lines : List Char → List (List Char)
  | [] => []
  | c :: cs =>
    if c = '\n' then ['\n'] :: lines cs
    else match lines cs with
      | [] => [[c]]
      | l :: ls => (c :: l) :: ls

@[simp] theorem flatten_lines (cs : List Char) : (lines cs).flatten = cs := by
  induction cs with
  | nil => rfl
  | cons c cs ih =>
    simp only [lines]
    split
    · simp_all
    · split <;> simp_all

/-- A line without the carriage returns and newlines at its end. -/
def content (line : List Char) : List Char := dropEndWhile isLineEnd line

/-- The carriage returns and newlines at the end of a line. -/
def ending (line : List Char) : List Char := line.drop (content line).length

/-- The text with every line's content rewritten and every ending kept. -/
def mapLines (f : List Char → List Char) (cs : List Char) : List Char :=
  ((lines cs).map fun line => f (content line) ++ ending line).flatten

/-- The byte position just past the first newline at or after a position, or the end of the text.
The position is given with the text from it on. -/
def lineEndFrom (pos : Nat) : List Char → Nat
  | [] => pos
  | c :: cs => if c = '\n' then pos + 1 else lineEndFrom (pos + c.utf8Size) cs

/-- The byte position just past the first newline at or after a position, or the end of the text. -/
def nextLineStart (cs : List Char) (pos : Nat) : Nat :=
  match cut? cs pos with
  | some (_, rest) => lineEndFrom pos rest
  | none => byteSize cs

/-- The byte position at which the line of a position starts. -/
def lineStart (cs : List Char) (pos : Nat) : Nat :=
  byteSize (dropEndWhile (· != '\n') (upTo cs pos))

end TemplateStyler.Text
