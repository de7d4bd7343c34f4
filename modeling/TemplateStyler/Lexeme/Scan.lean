import TemplateStyler.Lexeme.Grammar

/-!
# Scanning

`Grammar.scan` cuts a text into lexemes, each with the byte position at which it starts. A scan can
be bounded: `Grammar.lexemes` reads a range of a text, sees whether a line starts at the beginning
of the range, and sees nothing past its end, where it may cut the last lexeme short.

* Lexemes make up the text that is scanned (`flatten_scan`), and none is empty
  (`ne_nil_of_mem_scan`).
-/

namespace TemplateStyler

/-- A part of a text that is styled as one. -/
structure Lexeme where
  /-- The byte position of its first character. -/
  start : Nat
  text : Text
  deriving DecidableEq, Repr, Inhabited

namespace Lexeme

/-- The number of bytes of a lexeme. -/
def size (l : Lexeme) : Nat := Text.byteSize l.text

/-- The byte position just past a lexeme. -/
def stop (l : Lexeme) : Nat := l.start + l.size

/-- Whether a line ends with the lexeme. -/
def endsLine (l : Lexeme) : Bool := l.text.getLast? == some '\n'

end Lexeme

namespace Grammar

/-- The lexemes of a text that starts at a byte position. The flag tells whether a line starts
there. -/
def scan (g : Grammar) (pos : Nat) (lineStart : Bool) : List Char → List Lexeme
  | [] => []
  | c :: cs =>
    let n := g.extent lineStart (c :: cs)
    let lexeme : Lexeme := ⟨pos, (c :: cs).take n⟩
    lexeme :: scan g lexeme.stop lexeme.endsLine ((c :: cs).drop n)
termination_by cs => cs.length
decreasing_by
  have := g.one_le_extent lineStart (c :: cs)
  simp only [List.length_drop, List.length_cons]
  omega

@[simp] theorem flatten_scan (g : Grammar) (pos : Nat) (lineStart : Bool) (cs : List Char) :
    ((g.scan pos lineStart cs).map Lexeme.text).flatten = cs := by
  fun_induction scan g pos lineStart cs with
  | case1 => rfl
  | case2 pos lineStart c cs n lexeme ih =>
    simp only [List.map_cons, List.flatten_cons, ih]
    exact List.take_append_drop n (c :: cs)

theorem ne_nil_of_mem_scan {g : Grammar} {pos : Nat} {lineStart : Bool} {cs : List Char}
    {l : Lexeme} (h : l ∈ g.scan pos lineStart cs) : l.text ≠ [] := by
  fun_induction scan g pos lineStart cs with
  | case1 => simp at h
  | case2 pos lineStart c cs n lexeme ih =>
    rcases List.mem_cons.1 h with rfl | h
    · have : n ≠ 0 := Nat.ne_of_gt (g.one_le_extent lineStart (c :: cs))
      simp [lexeme, this]
    · exact ih h

/-- The lexemes of a whole text. -/
def scanText (g : Grammar) (cs : List Char) : List Lexeme := g.scan 0 true cs

/-- The lexemes of a text between two byte positions. Both are lowered to the end of the text, the
first one to the second. -/
def lexemes (g : Grammar) (cs : List Char) (start stop : Nat) : Except Fault (List Lexeme) := do
  let stop := min stop (Text.byteSize cs)
  let pos := min start stop
  let (seen, _) ← Text.cut cs stop
  if pos = stop then return []
  let (before, rest) ← Text.cut seen pos
  return g.scan pos (before.getLast?.all (· == '\n')) rest

end Grammar

end TemplateStyler
