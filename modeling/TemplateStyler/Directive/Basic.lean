import TemplateStyler.Text.Lines

/-!
# Directives

A directive is a line of a script block that draws variables at random: `let`, the names, `in`, and
the ranges to draw from. The script language does not know it.

* `Directive.assignment` binds the same names in the script language.
* `isDirectiveLine` recognises the lines that are meant as directives, well formed or not.
* `normalize` is the canonical spelling: single spaces, commas followed by a space. It works on text
  and so also on malformed directives.
* `Defect` is what is wrong with a malformed one, with the columns at which it shows.
-/

namespace TemplateStyler

/-- The integers from one bound to another, from which a value is drawn. -/
structure Interval where
  start : Int
  stop : Int
  /-- Whether the value drawn gets a random sign. -/
  randomSign : Bool
  deriving DecidableEq, Repr, Inhabited

/-- The variables that a directive draws and the intervals that it draws them from. -/
structure Directive where
  names : List Text
  ranges : List Interval
  deriving DecidableEq, Repr, Inhabited

/-- A token of a directive. -/
inductive Token where
  | letWord
  | inWord
  | comma
  | dots
  | randomSign
  | plus
  | minus
  | integer (value : Nat)
  | name (text : Text)
  deriving DecidableEq, Repr, Inhabited

/-- Why a line is no directive. -/
inductive Cause where
  /-- No token starts with these characters, or they are digits of too large an integer. -/
  | badCharacters (text : Text)
  /-- No directive goes on with this token. -/
  | unexpected (token : Token)
  /-- The line ends where a directive goes on. -/
  | unfinished
  /-- An interval ends before it starts. -/
  | emptyInterval (start stop : Int)
  deriving DecidableEq, Repr, Inhabited

/-- What is wrong with a line, from one column to another. Columns count characters. -/
structure Defect where
  cause : Cause
  start : Nat
  stop : Nat
  deriving DecidableEq, Repr, Inhabited

/-- Names or values with commas between them. -/
def commaSeparated (items : List Text) : Text := [',', ' '].intercalate items

namespace Directive

/-- The assignment of zero to each name of the directive. -/
def assignment (d : Directive) : Text :=
  commaSeparated d.names ++ " = ".toList ++ commaSeparated (d.names.map fun _ => ['0'])

open Text

/-- Whether a line starts, after blanks, with the word of directives and a blank. -/
def isDirectiveLine (line : List Char) : Bool :=
  match line.dropWhile isBlank with
  | 'l' :: 'e' :: 't' :: c :: _ => isBlank c
  | _ => false

/-- The blanks at the start of a line. -/
def indentation (line : List Char) : List Char := line.takeWhile isBlank

/-- Every run of blanks replaced by one space. -/
def collapseBlanks : List Char → List Char
  | [] => []
  | c :: cs =>
    if isBlank c then
      if cs.head?.any isBlank then collapseBlanks cs else ' ' :: collapseBlanks cs
    else c :: collapseBlanks cs

/-- Every comma with the blanks around it replaced by a comma and a space. The flag tells whether a
comma came just before. -/
def spaceCommas : Bool → List Char → List Char
  | _, [] => []
  | afterComma, c :: cs =>
    if isBlank c && (afterComma || (cs.dropWhile isBlank).head? == some ',') then
      spaceCommas afterComma cs
    else if c == ',' then ',' :: ' ' :: spaceCommas true cs
    else c :: spaceCommas false cs

/-- A directive in its canonical spelling. -/
def normalize (text : List Char) : List Char := spaceCommas false (collapseBlanks (trim text))

end Directive

namespace Token

/-- A token as messages show it. -/
def shown : Token → String
  | letWord => "`let`"
  | inWord => "`in`"
  | comma => "`,`"
  | dots => "`..`"
  | randomSign => "`+-`"
  | plus => "`+`"
  | minus => "`-`"
  | integer n => "integer " ++ toString n
  | name t => "name `" ++ String.ofList t ++ "`"

end Token

namespace Defect

/-- The number that an integer is, in decimal digits. -/
def decimal : Int → String
  | .ofNat n => toString n
  | .negSucc n => "-" ++ toString (n + 1)

/-- What is wrong, in words. -/
def message (d : Defect) : String :=
  match d.cause with
  | .badCharacters text => "unexpected character `" ++ String.ofList text ++ "`"
  | .unexpected token => "unexpected " ++ token.shown
  | .unfinished => "unexpected end of directive"
  | .emptyInterval start stop => "empty range " ++ decimal start ++ ".." ++ decimal stop

/-- What is wrong with a directive and where: the text of a message at a column, which readers count
from one. -/
def report (column : Nat) (message : String) : Except Fault String := do
  return "Invalid let directive at column " ++ toString (← Size.add column 1) ++ ": " ++ message

end Defect

end TemplateStyler
