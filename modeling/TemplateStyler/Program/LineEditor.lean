import TemplateStyler.Program.Pattern

/-!
# The line editor

A script of commands is applied to every line of the input. A command applies to all lines, to the
line with a number, to the last line, or to lines that hold a pattern.

* `Program.sed` is the program.
-/

namespace TemplateStyler.LineEditor

/-- The lines to which a command applies. -/
inductive Address where
  | all
  | number (n : Nat)
  | last
  | holding (pattern : Pattern)
  deriving DecidableEq, Repr, Inhabited

/-- What a command does. -/
inductive Action where
  | delete
  | write
  | quit
  | writeNumber
  | exchange (old new : Octets)
  | substitute (pattern : Pattern) (new : Octets) (everywhere written : Bool)
  deriving DecidableEq, Repr, Inhabited

/-- A command of a script. -/
structure Command where
  address : Address
  negated : Bool
  action : Action
  deriving DecidableEq, Repr, Inhabited

/-! ### Reading scripts -/

/-- The text up to a separator, where a backslash makes the separator stand for itself, and the text
after it. -/
def field? (separator : Char) : Octets → Option (Octets × Octets)
  | [] => none
  | '\\' :: c :: os =>
    (field? separator os).map fun f => (if c = separator then c :: f.1 else '\\' :: c :: f.1, f.2)
  | c :: os =>
    if c = separator then some ([], os) else (field? separator os).map fun f => (c :: f.1, f.2)

/-- An address, and the text after it. -/
def address? : Octets → Option (Address × Octets)
  | '/' :: os => do
    let (pattern, os) ← field? '/' os
    return (.holding (← Pattern.read? pattern), os)
  | '$' :: os => some (.last, os)
  | os =>
    let digits := os.takeWhile Char.isDigit
    some (if digits.isEmpty then .all else .number (Text.ofDigits 10 digits),
      os.dropWhile Char.isDigit)

/-- An action, and the text after it. -/
def action? : Octets → Option (Action × Octets)
  | 'd' :: os => some (.delete, os)
  | 'p' :: os => some (.write, os)
  | 'q' :: os => some (.quit, os)
  | '=' :: os => some (.writeNumber, os)
  | 'y' :: separator :: os => do
    let (old, os) ← field? separator os
    let (new, os) ← field? separator os
    if old.length = new.length then some (.exchange old new, os) else none
  | 's' :: separator :: os => do
    let (pattern, os) ← field? separator os
    let (new, os) ← field? separator os
    let flags := os.takeWhile fun c => c == 'g' || c == 'p'
    return (.substitute (← Pattern.read? pattern) new (flags.contains 'g') (flags.contains 'p'),
      os.dropWhile fun c => c == 'g' || c == 'p')
  | _ => none

/-- Blanks and the separators of commands. -/
def isFiller (c : Char) : Bool := Text.isBlank c || c == ';' || c == '\n'

/-- The commands of a script. -/
def script? : Nat → Octets → Option (List Command)
  | 0, _ => none
  | n + 1, os => do
    match os.dropWhile isFiller with
    | [] => return []
    | os =>
      let (address, os) ← address? os
      let os := os.dropWhile Text.isBlank
      let negated := os.head? = some '!'
      let (action, os) ← action? ((if negated then os.drop 1 else os).dropWhile Text.isBlank)
      let os := os.dropWhile Text.isBlank
      if (os.head?.map isFiller).getD true then
        return ⟨address, negated, action⟩ :: (← script? n os)
      else none

/-! ### Editing -/

/-- What is put in for a piece of a line: an ampersand stands for the piece itself. -/
def filled (piece : Octets) : Octets → Octets
  | [] => []
  | '\\' :: 'n' :: os => '\n' :: filled piece os
  | '\\' :: 't' :: os => '\t' :: filled piece os
  | '\\' :: c :: os => c :: filled piece os
  | '&' :: os => piece ++ filled piece os
  | c :: os => c :: filled piece os

/-- A line with the pieces that a pattern fits replaced, one or all of them, and whether there was
one. A piece without octets does not directly follow another piece. -/
def replaced (p : Pattern) (new : Octets) (everywhere : Bool) :
    Nat → Bool → Bool → Octets → Octets × Bool
  | 0, _, _, os => (os, false)
  | n + 1, atStart, afterPiece, os =>
    match p.find? atStart os with
    | none => (os, false)
    | some (before, piece, rest) =>
      let first := if piece.isEmpty && before.isEmpty && afterPiece then [] else filled piece new
      if !everywhere then (before ++ first ++ rest, true)
      else if piece.isEmpty then
        match rest with
        | [] => (before ++ first, true)
        | c :: rest => (before ++ first ++ c :: (replaced p new true n false false rest).1, true)
      else (before ++ first ++ (replaced p new true n false true rest).1, true)

/-- A line under the commands of a script. -/
structure Work where
  line : Octets
  /-- Copies of the line that commands have written. -/
  written : List Octets := []
  deleted : Bool := false
  stopped : Bool := false
  deriving DecidableEq, Repr, Inhabited

/-- Whether a command applies to a line. -/
def Command.applies (c : Command) (number : Nat) (isLast : Bool) (line : Octets) : Bool :=
  (match c.address with
    | .all => true
    | .number n => n == number
    | .last => isLast
    | .holding p => (p.find? true line).isSome) != c.negated

/-- The work after a command. -/
def Work.after (number : Nat) (isLast : Bool) (w : Work) (c : Command) : Work :=
  if w.deleted || w.stopped || !c.applies number isLast w.line then w
  else match c.action with
    | .delete => { w with deleted := true }
    | .write => { w with written := w.written ++ [w.line] }
    | .quit => { w with stopped := true }
    | .writeNumber => { w with written := w.written ++ [(toString number).toList] }
    | .exchange old new =>
      { w with line := w.line.map fun c => ((old.zip new).lookup c).getD c }
    | .substitute p new everywhere written =>
      let (line, found) := replaced p new everywhere (w.line.length + 2) true false w.line
      { w with line, written := if found && written then w.written ++ [line] else w.written }

/-- The output for lines, of which the last one may lack its end, from the number of lines before
them. -/
def edited (script : List Command) (silent ended : Bool) (number : Nat) : List Octets → Octets
  | [] => []
  | line :: lines =>
    let w := script.foldl (Work.after (number + 1) lines.isEmpty) { line }
    let shown := w.written ++ if silent || w.deleted then [] else [w.line]
    let text := Program.join ['\n'] shown
    let close : Octets := if shown.isEmpty || (lines.isEmpty && !ended) then [] else ['\n']
    text ++ close ++ if w.stopped then [] else edited script silent ended (number + 1) lines

/-- The lines of a text without their ends. -/
def linesOf (os : Octets) : List Octets :=
  let lines := os.splitOn '\n'
  if lines.getLast? = some [] then lines.dropLast else lines

end LineEditor

/-- The scripts among arguments and the names of files after them: scripts follow an option `e`, or
the first argument is the only one. -/
def LineEditor.scripts : List Octets → List Octets × List Octets
  | ['-', 'e'] :: script :: more => (script :: (scripts more).1, (scripts more).2)
  | more => ([], more)

/-- The line editor: the option `n` leaves out the lines that no command writes. -/
def Program.sed : Program := fun directory arguments input =>
  let silent := arguments.contains ['-', 'n']
  let (scripts, names) := match LineEditor.scripts (arguments.filter (· ≠ ['-', 'n'])) with
    | ([], script :: names) => ([script], names)
    | found => found
  let script := Program.join ['\n'] scripts
  let source := gather (Octets.ofString "sed: can't read " ++ ·) 2 directory names input
  match if scripts.isEmpty then none else LineEditor.script? (script.length + 1) script with
  | some commands =>
    { source with
      out := LineEditor.edited commands silent (source.out.getLast? = some '\n') 0
        (LineEditor.linesOf source.out) }
  | none => Program.complain 1 "sed: -e expression #1, char 1: unknown command" input

end TemplateStyler
