import TemplateStyler.Program.Basic
import TemplateStyler.Text.Digit

/-!
# Portions of the input

* `Program.head` writes the start of its input, `Program.count` its size.
-/

namespace TemplateStyler.Program

/-- The first lines of a text, as many as a number says. -/
def firstLines : Nat → Octets → Octets
  | 0, _ => []
  | _, [] => []
  | n + 1, c :: os => c :: firstLines (if c = '\n' then n else n + 1) os

/-- The start of the input: ten lines, or as many lines or octets as an option says. -/
def head : Program := fun _ arguments input =>
  let lines (digits : Octets) : Ending :=
    match Text.decimal? digits with
    | some n => { out := firstLines n input }
    | none => complain 1 "head: invalid number of lines" input
  match arguments with
  | [] => { out := firstLines 10 input }
  | [['-', 'n'], digits] => lines digits
  | ['-', 'c'] :: digits :: _ | [('-' :: 'c' :: digits)] =>
    match Text.decimal? digits with
    | some n => { out := input.take n }
    | none => complain 1 "head: invalid number of bytes" input
  | [('-' :: 'n' :: digits)] => lines digits
  | [('-' :: digits)] => lines digits
  | _ => complain 1 "head: cannot open the file" input

/-- The number of words of a text. The flag says whether a word is open. -/
def wordCount (isOpen : Bool) : Octets → Nat
  | [] => if isOpen then 1 else 0
  | c :: os =>
    if Text.isSpace c then wordCount false os + if isOpen then 1 else 0 else wordCount true os

/-- The number of lines, words or octets of the input, as an option says. -/
def count : Program := fun _ arguments input =>
  match arguments with
  | [['-', 'c']] => { out := (toString input.length ++ "\n").toList }
  | [['-', 'l']] => { out := (toString (input.count '\n') ++ "\n").toList }
  | [['-', 'w']] => { out := (toString (wordCount false input) ++ "\n").toList }
  | _ => complain 1 "wc: invalid option" input

end TemplateStyler.Program
