import TemplateStyler.Program.Basic
import TemplateStyler.Text.Digit

/-!
# Programs that write their arguments

* `Program.echo` writes its arguments on a line, `Program.printf` writes them after a pattern.
* `Program.unescape` is the text in which backslashes are followed by what they stand for.
-/

namespace TemplateStyler.Program

/-- The octet that a letter after a backslash stands for. -/
def escapedLetter? : Char → Option Char
  | '\\' => some '\\'
  | 'a' => some '\x07'
  | 'b' => some '\x08'
  | 'e' => some '\x1b'
  | 'f' => some '\x0c'
  | 'n' => some '\n'
  | 'r' => some '\r'
  | 't' => some '\t'
  | 'v' => some '\x0b'
  | _ => none

/-- The octet with a number in octal digits, and how many digits it takes, three at most. -/
def octal (os : Octets) : Char × Nat :=
  let digits := (os.takeWhile (Text.isDigitOf 8)).take 3
  (Char.ofNat (Text.ofDigits 8 digits % 256), digits.length)

/-- The text with what backslashes stand for, and whether it goes on to its end: a backslash with a
`c` ends it. Octal numbers follow the backslash directly, or a zero after it where `zeroFirst` says
so. -/
def unescape (zeroFirst : Bool) : Octets → Octets × Bool
  | [] => ([], true)
  | '\\' :: 'c' :: _ => ([], false)
  | '\\' :: c :: os =>
    match escapedLetter? c with
    | some x =>
      let (rest, whole) := unescape zeroFirst os
      (x :: rest, whole)
    | none =>
      if zeroFirst ∧ c = '0' then
        let (x, used) := octal os
        let (rest, whole) := unescape zeroFirst (os.drop used)
        (x :: rest, whole)
      else if !zeroFirst && Text.isDigitOf 8 c then
        let (x, used) := octal (c :: os)
        let (rest, whole) := unescape zeroFirst (os.drop (used - 1))
        (x :: rest, whole)
      else
        let (rest, whole) := unescape zeroFirst os
        ('\\' :: c :: rest, whole)
  | c :: os =>
    let (rest, whole) := unescape zeroFirst os
    (c :: rest, whole)
termination_by os => os.length
decreasing_by all_goals (simp only [List.length_drop, List.length_cons]; omega)

/-! ### Echo -/

/-- Whether an argument is an option of `echo`. -/
def isEchoOption (argument : Octets) : Bool :=
  match argument with
  | '-' :: letters => !letters.isEmpty && letters.all fun c => c == 'n' || c == 'e' || c == 'E'
  | _ => false

/-- The arguments on a line, without its end for the option `n`. Backslashes stand for themselves,
but for the option `e`. -/
def echo : Program := fun _ arguments input =>
  let letters := (arguments.takeWhile isEchoOption).flatMap (·.drop 1)
  let words := join [' '] (arguments.dropWhile isEchoOption)
  let escapes := (letters.filter (· ≠ 'n')).getLast? = some 'e'
  let (text, whole) := if escapes then unescape true words else (words, true)
  { out := text ++ if whole && !letters.contains 'n' then ['\n'] else [], rest := input }

/-- The arguments on a line, with what backslashes stand for. -/
def echoEscaped : Program := fun _ arguments input =>
  let silent := arguments.head? = some ['-', 'n']
  let (text, whole) := unescape true (join [' '] (if silent then arguments.drop 1 else arguments))
  { out := text ++ if whole && !silent then ['\n'] else [], rest := input }

/-! ### Printf -/

/-- A part of a pattern. -/
inductive Place where
  /-- Octets that stand for themselves. -/
  | octets (os : Octets)
  /-- A place for an argument: whether it starts at the left, the least width, and the letter for
  its kind. -/
  | argument (left : Bool) (width : Nat) (kind : Char)
  deriving DecidableEq, Repr, Inhabited

/-- The parts of a pattern; none where a place has no letter. -/
def places? : Nat → Octets → Option (List Place)
  | 0, _ => none
  | _, [] => some []
  | n + 1, '%' :: '%' :: os => (places? n os).map (.octets ['%'] :: ·)
  | n + 1, '%' :: os =>
    let left := os.head? = some '-'
    let os := if left then os.drop 1 else os
    let width := Text.ofDigits 10 (os.takeWhile Char.isDigit)
    match os.dropWhile Char.isDigit with
    | [] => none
    | kind :: os => (places? n os).map (.argument left width kind :: ·)
  | n + 1, os =>
    (places? n (os.dropWhile (· ≠ '%'))).map
      (.octets (unescape false (os.takeWhile (· ≠ '%'))).1 :: ·)

/-- An argument in its place, padded with blanks. -/
def padded (left : Bool) (width : Nat) (os : Octets) : Octets :=
  let blanks := List.replicate (width - os.length) ' '
  if left then os ++ blanks else blanks ++ os

/-- An argument as a place for its kind shows it. -/
def shown (kind : Char) (argument : Octets) : Octets :=
  if kind = 'c' then argument.take 1
  else if kind = 'b' then (unescape true argument).1
  else if kind = 's' then argument
  else if argument.isEmpty then ['0']
  else argument

/-- The parts of a pattern filled with arguments, and the arguments that are left. -/
def fill : List Place → List Octets → Octets × List Octets
  | [], arguments => ([], arguments)
  | .octets os :: places, arguments =>
    let (rest, left) := fill places arguments
    (os ++ rest, left)
  | .argument left width kind :: places, arguments =>
    let (rest, unused) := fill places (arguments.drop 1)
    (padded left width (shown kind (arguments.headD [])) ++ rest, unused)

/-- A pattern filled again and again until no argument is left, but at most a number of times. -/
def fillAll (places : List Place) : Nat → List Octets → Octets
  | 0, _ => []
  | n + 1, arguments =>
    let (os, left) := fill places arguments
    if left.isEmpty ∨ left.length = arguments.length then os else os ++ fillAll places n left

/-- The arguments after the first one, in the places of the first one. -/
def printf : Program := fun _ arguments input =>
  match arguments with
  | [] => complain 1 "printf: missing operand\nTry 'printf --help' for more information." input
  | pattern :: arguments =>
    match places? (pattern.length + 1) pattern with
    | some places => { out := fillAll places (arguments.length + 1) arguments, rest := input }
    | none => complain 1 "printf: missing conversion specifier" input

end TemplateStyler.Program
