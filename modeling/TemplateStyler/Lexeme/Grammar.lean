import TemplateStyler.Registry.Basic
import TemplateStyler.Text.Word

/-!
# The grammar of lexemes

A text is read by rules. At each position the first rule that matches, in the order of `Rule.all`,
gives the next lexeme. Some rules match only where a line starts, and two depend on the names of a
registry. No rule looks at what stands before the position, the start of the line apart.

* `Rule.extent?` is the number of characters that a rule takes at a position.
* `Grammar.extent` is the length of the next lexeme; it is never zero (`one_le_extent`), because the
  last rule takes any character.
-/

namespace TemplateStyler

/-- The names that the rules need, in the order in which they are tried. -/
structure Grammar where
  /-- Tags with an argument, longest first. -/
  argumentTags : List Text
  /-- Keys of the header, longest first. -/
  headerKeys : List Text
  deriving DecidableEq, Repr, Inhabited

/-- Names without repetition, those with more bytes first, otherwise in the order of their
characters. -/
def longestFirst (names : List Text) : List Text :=
  (sortedNames names).mergeSort fun a b => Text.byteSize b ≤ Text.byteSize a

/-- The message that a grammar cannot be used, with the reason. No registry gives such a grammar. -/
def Grammar.invalid (reason : String) : String := "Invalid token grammar: " ++ reason

/-- The grammar that the names of a registry define. -/
def Registry.grammar (r : Registry) : Grammar where
  argumentTags := longestFirst r.argumentTags
  headerKeys := longestFirst r.headerKeys

/-- A rule for lexemes. -/
inductive Rule where
  /-- Four dots or more at the start of a line. -/
  | dots
  /-- A tag glued to the brace of its argument. -/
  | argumentTag
  /-- A number sign and a name, perhaps with an annotation in square brackets. -/
  | hashName
  /-- The mark of a disabled inclusion, at the start of a line. -/
  | disabledInclusion
  /-- The mark of a change of directory, at the start of a line. -/
  | directoryChange
  /-- The mark of an inclusion, at the start of a line. -/
  | inclusion
  /-- Three equals signs or more at the start of a line. -/
  | headerDelimiter
  /-- Three opening angle brackets or more at the start of a line. -/
  | coreOpening
  /-- Three closing angle brackets or more at the start of a line. -/
  | coreClosing
  /-- A key of the header with its equals sign, at the start of a line. -/
  | headerKey
  /-- A comment that fills its line. -/
  | lineComment
  /-- A comment that ends its line, with the blanks before it. -/
  | trailingComment
  /-- A number sign and one mark of punctuation. -/
  | hashMark
  /-- The mark of an answer, at the start of a line. -/
  | answer
  /-- The opening of a conditional answer. -/
  | conditionalAnswer
  /-- The line that separates two versions, with its newline. -/
  | alternativeVersion
  /-- A backslash before a backslash or a quote. -/
  | escapedQuote
  /-- A backslash and a word of letters, or a backslash before a percent sign or a brace. -/
  | macroName
  /-- Three quotes of one kind. -/
  | tripleQuote
  /-- A newline, with the carriage return before it. -/
  | newline
  /-- A run of blanks. -/
  | blanks
  /-- A run of digits, with a point before or inside it. -/
  | number
  /-- A run of word characters. -/
  | word
  /-- Any character. -/
  | other
  deriving DecidableEq, Repr

namespace Rule

/-- The rules in the order in which they are tried. -/
def all : List Rule :=
  [.dots, .argumentTag, .hashName, .disabledInclusion, .directoryChange, .inclusion,
   .headerDelimiter, .coreOpening, .coreClosing, .headerKey, .lineComment, .trailingComment,
   .hashMark, .answer, .conditionalAnswer, .alternativeVersion, .escapedQuote, .macroName,
   .tripleQuote, .newline, .blanks, .number, .word, .other]

end Rule

namespace Lexeme

open Text

/-! ### Pieces of the rules -/

/-- The length of a run of at least `n` characters that pass the test. -/
def atLeast (n : Nat) (p : Char → Bool) (cs : List Char) : Option Nat :=
  if n ≤ run p cs then some (run p cs) else none

/-- The length of a fixed word that the text starts with. -/
def literal (word : List Char) (cs : List Char) : Option Nat :=
  if word.isPrefixOf cs then some word.length else none

/-- The length of the first of several words that the text starts with. -/
def oneOf (words : List String) (cs : List Char) : Option Nat :=
  words.findSome? fun word => literal word.toList cs

/-- The length of what one reader takes and then another one from the rest. -/
def both (first second : List Char → Option Nat) (cs : List Char) : Option Nat :=
  (first cs).bind fun n => (second (cs.drop n)).map (n + ·)

/-- The length of what a reader takes, or nothing. -/
def optional (reader : List Char → Option Nat) (cs : List Char) : Option Nat :=
  some ((reader cs).getD 0)

/-- Blanks, as many as there are. -/
def skipBlanks (cs : List Char) : Option Nat := atLeast 0 isBlank cs

/-- A number sign, a blank and the rest of the line. -/
def hashComment (cs : List Char) : Option Nat :=
  both (literal ['#']) (both (fun cs => if (cs.head?.any isBlank) then some 1 else none)
    (atLeast 0 fun c => !isLineEnd c)) cs

/-- An annotation in square brackets on one line. -/
def annotation (cs : List Char) : Option Nat :=
  both (literal ['[']) (both (atLeast 0 fun c => !(c == ']' || isLineEnd c)) (literal [']'])) cs

/-- A name of a list followed by what a reader takes, for the first name for which it takes
something. -/
def named (names : List Text) (reader : List Char → Option Nat) (cs : List Char) : Option Nat :=
  names.findSome? fun name => both (literal name) reader cs

/-- What a reader takes after blanks: after all of them, or after as many as it leaves possible. -/
def afterBlanks (reader : List Char → Option Nat) (cs : List Char) : Option Nat :=
  (List.range (run isBlank cs + 1)).reverse.findSome? fun n => (reader (cs.drop n)).map (n + ·)

/-- The end of a line, with its newline where it has one. -/
def lineEnd : List Char → Option Nat
  | [] => some 0
  | '\n' :: _ => some 1
  | '\r' :: '\n' :: _ => some 2
  | _ => none

end Lexeme

open Lexeme Text in
/-- The number of characters that a rule takes at the start of a text. The flag tells whether a line
starts there. -/
def Rule.extent? (g : Grammar) (lineStart : Bool) (cs : List Char) (rule : Rule) : Option Nat :=
  let onLineStart (reader : List Char → Option Nat) := if lineStart then reader cs else none
  match rule with
  | .dots => onLineStart (atLeast 4 (· == '.'))
  | .argumentTag => both (literal ['#']) (named g.argumentTags (literal ['{'])) cs
  | .hashName => both (literal ['#']) (both (atLeast 1 isWord) (optional annotation)) cs
  | .disabledInclusion => onLineStart (oneOf ["!-- ", "!--\t"])
  | .directoryChange =>
    onLineStart (both (literal ['-', '-']) (both (atLeast 1 isBlank) (oneOf ["DIR:", "ROOT:"])))
  | .inclusion => onLineStart (oneOf ["-- ", "--\t"])
  | .headerDelimiter => onLineStart (atLeast 3 (· == '='))
  | .coreOpening => onLineStart (atLeast 3 (· == '<'))
  | .coreClosing => onLineStart (atLeast 3 (· == '>'))
  | .headerKey =>
    onLineStart (afterBlanks (named g.headerKeys (both skipBlanks (literal ['=']))))
  | .lineComment => onLineStart (both skipBlanks hashComment)
  | .trailingComment => both (atLeast 1 isBlank) hashComment cs
  | .hashMark => oneOf ["#+", "#-", "#*", "#=", "#?", "##", "#\x7b"] cs
  | .answer => onLineStart (oneOf ["+ ", "- ", "! "])
  | .conditionalAnswer => oneOf ["?\x7b"] cs
  | .alternativeVersion => onLineStart (both (literal ['O', 'R']) (both skipBlanks lineEnd))
  | .escapedQuote => oneOf ["\\\\", "\\'", "\\\""] cs
  | .macroName =>
    (both (literal ['\\']) (atLeast 1 Char.isAlpha) cs).or (oneOf ["\\%", "\\\x7b", "\\\x7d"] cs)
  | .tripleQuote => oneOf ["'''", "\"\"\""] cs
  | .newline => oneOf ["\r\n", "\n"] cs
  | .blanks => atLeast 1 isBlank cs
  | .number =>
    ((both (atLeast 1 Char.isDigit) (both (literal ['.']) (atLeast 1 Char.isDigit)) cs).or
      (atLeast 1 Char.isDigit cs)).or (both (literal ['.']) (atLeast 1 Char.isDigit) cs)
  | .word => atLeast 1 isWord cs
  | .other => some 1

namespace Grammar

/-- The length of the lexeme at the start of a text, by the first rule that matches. -/
def extent (g : Grammar) (lineStart : Bool) (cs : List Char) : Nat :=
  max 1 ((Rule.all.findSome? (Rule.extent? g lineStart cs)).getD 1)

theorem one_le_extent (g : Grammar) (lineStart : Bool) (cs : List Char) :
    1 ≤ g.extent lineStart cs := Nat.le_max_left _ _

end Grammar

end TemplateStyler
