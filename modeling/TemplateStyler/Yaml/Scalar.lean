/-!
# Scalars of YAML

A text is written as it stands where nothing else could be read there; else in single quotes, with
its lines set apart in a block, or in double quotes with escapes.

* `Yaml.Form` are the four ways, and `Yaml.form` chooses one for a text.
* `Yaml.scalarLine` writes a text and the end of its line.
-/

namespace TemplateStyler.Yaml

/-! ### Characters -/

/-- The ends of lines. -/
def isBreak (c : Char) : Bool :=
  c == '\n' || c == '\r' || c == '\x85' || c == '\u2028' || c == '\u2029'

/-- Characters that may stand in a document as they are. -/
def isPrintable (c : Char) : Bool :=
  let n := c.toNat
  n == 0x0A || (0x20 ≤ n && n ≤ 0x7E) || (0xA0 ≤ n && n ≤ 0xD7FF)
    || (0xE000 ≤ n && n ≤ 0xFFFD && n != 0xFEFF) || 0x10000 ≤ n

/-- What may separate words: blanks, line ends and the end of the text, which the character zero
stands for. -/
def separates (c : Char) : Bool := c == ' ' || c == '\t' || c == '\x00' || isBreak c

/-! ### Where a text could be taken for something else -/

/-- Characters that mean something at the start of a value. -/
def indicators : List Char :=
  ['#', ',', '[', ']', '\x7b', '\x7d', '&', '*', '!', '|', '>', '\'', '"', '%', '@', '\x60']

/-- Whether a text starts with what means something. -/
def startsMarked : List Char → Bool
  | [] => false
  | c :: cs =>
    "---".toList.isPrefixOf (c :: cs) || "...".toList.isPrefixOf (c :: cs) || indicators.contains c
      || ((c == '?' || c == ':' || c == '-') && separates (cs.headD '\x00'))

/-- Whether a text has a colon at the end of a word, or a number sign at the start of one, after its
first character, which is given. -/
def insideMarked : Char → List Char → Bool
  | _, [] => false
  | before, c :: cs =>
    (c == ':' && separates (cs.headD '\x00')) || (c == '#' && separates before)
      || insideMarked c cs

/-- Whether two neighbours in a text pass a test each. -/
def anyNeighbours (p q : Char → Bool) (cs : List Char) : Bool :=
  (cs.zip (cs.drop 1)).any fun n => p n.1 && q n.2

/-- Whether a text on one line reads as a truth value, as nothing or perhaps as a number. -/
def isAmbiguous (cs : List Char) : Bool :=
  let word := String.ofList (cs.map Char.toLower)
  ["", "true", "false", "null", "~"].contains word
    || (cs.head?.map fun c => c.isDigit || c == '-' || c == '+' || c == '.').getD false

/-! ### The form of a text -/

/-- How a text is written. -/
inductive Form where
  | plain
  | singleQuoted
  | doubleQuoted
  | block
  deriving DecidableEq, Repr, Inhabited

/-- How a text is written best. -/
def form (cs : List Char) : Form :=
  let special := !cs.all isPrintable || anyNeighbours (· == ' ') isBreak cs
  let edge (c : Option Char) : Bool := (c.map fun c => c == ' ' || isBreak c).getD false
  if cs.contains '\n' then
    if special || cs.getLast? == some ' ' then .doubleQuoted else .block
  else if special || anyNeighbours isBreak (· == ' ') cs then .doubleQuoted
  else if isAmbiguous cs || edge cs.head? || edge cs.getLast? || cs.any isBreak || startsMarked cs
      || insideMarked (cs.headD '\x00') (cs.drop 1) then .singleQuoted
  else .plain

/-! ### Writing -/

/-- A number in upper-case hexadecimal digits, with a number of them. -/
def hexadecimal (width n : Nat) : List Char :=
  (List.range width).reverse.map fun k => (Nat.digitChar (n / Nat.pow 16 k % 16)).toUpper

/-- A character between double quotes. -/
def escaped (c : Char) : List Char :=
  match c with
  | '\x00' => ['\\', '0']
  | '\x07' => ['\\', 'a']
  | '\x08' => ['\\', 'b']
  | '\t' => ['\\', 't']
  | '\n' => ['\\', 'n']
  | '\x0b' => ['\\', 'v']
  | '\x0c' => ['\\', 'f']
  | '\r' => ['\\', 'r']
  | '\x1b' => ['\\', 'e']
  | '"' => ['\\', '"']
  | '\\' => ['\\', '\\']
  | '\x85' => ['\\', 'N']
  | '\u2028' => ['\\', 'L']
  | '\u2029' => ['\\', 'P']
  | c =>
    if isPrintable c then [c]
    else if c.toNat < 0x100 then '\\' :: 'x' :: hexadecimal 2 c.toNat
    else if c.toNat < 0x10000 then '\\' :: 'u' :: hexadecimal 4 c.toNat
    else '\\' :: 'U' :: hexadecimal 8 c.toNat

/-- A text in which every line but the first one is indented, and in which single quotes are
doubled. The flag says whether a line has just ended. -/
def singleQuoted (indent : List Char) : Bool → List Char → List Char
  | after, [] => if after then indent else []
  | after, c :: cs =>
    if isBreak c then c :: singleQuoted indent true cs
    else (if after then indent else []) ++ (if c = '\'' then ['\'', '\''] else [c]) ++
      singleQuoted indent false cs

/-- A text in which every line that is not empty is indented. The flag says whether a line has just
ended. -/
def indented (indent : List Char) : Bool → List Char → List Char
  | _, [] => []
  | after, c :: cs =>
    if isBreak c then c :: indented indent true cs
    else (if after then indent else []) ++ c :: indented indent false cs

/-- The header of a block: the indentation, where the text does not show it, and what becomes of the
line ends at the end of the text. -/
def blockHeader (cs : List Char) : List Char :=
  let width := match cs.head? with
    | some c => if c == ' ' || isBreak c then ['2'] else []
    | none => []
  let ends := match cs.reverse with
    | [] => ['-']
    | c :: before =>
      if !isBreak c then ['-'] else if (before.head?.map isBreak).getD true then ['+'] else []
  '|' :: width ++ ends

/-- A text as the last value of a line, further lines being indented by a number of spaces. -/
def scalarLine (width : Nat) (cs : List Char) : List Char :=
  let indent := List.replicate width ' '
  match form cs with
  | .plain => cs ++ ['\n']
  | .singleQuoted => '\'' :: singleQuoted indent false cs ++ ['\'', '\n']
  | .doubleQuoted => '"' :: cs.flatMap escaped ++ ['"', '\n']
  | .block =>
    let ended := (cs.getLast?.map isBreak).getD false
    blockHeader cs ++ '\n' :: indented indent true cs ++ if ended then [] else ['\n']

end TemplateStyler.Yaml
