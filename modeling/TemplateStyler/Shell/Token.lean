import TemplateStyler.Program.Octets
import TemplateStyler.Text.Digit

/-!
# Tokens of the shell

A script is cut into words and the marks between them. A word is kept as its fragments, because what
they stand for is known only when the word is used.

* `Shell.tokens` cuts a script.
* `Shell.Malformed` says why a text is no script.
-/

namespace TemplateStyler.Shell

/-- A part of a word, and whether it stands in quotes. -/
inductive Fragment where
  | octets (quoted : Bool) (os : Octets)
  /-- The value of a parameter. -/
  | parameter (quoted : Bool) (name : Octets)
  /-- The output of a script. -/
  | output (quoted : Bool) (script : Octets)
  deriving DecidableEq, Repr, Inhabited

/-- A word of a script. -/
abbrev Word := List Fragment

/-- When a pipeline runs. -/
inductive Condition where
  | always
  | afterSuccess
  | afterFailure
  deriving DecidableEq, Repr, Inhabited

/-- A token of a script. -/
inductive Token where
  | word (w : Word)
  | opening
  | closing
  | pipe
  /-- What stands between two pipelines. -/
  | next (condition : Condition) (mark : String)
  /-- A redirection of a stream, to another stream or to what a word names. -/
  | redirect (stream : Nat) (toStream : Bool)
  deriving DecidableEq, Repr, Inhabited

/-- Why a text is no script. -/
inductive Malformed where
  /-- A quote is not closed. -/
  | openQuote
  /-- A stream that is none. -/
  | badStream
  /-- Something stands where it cannot, perhaps in place of something else. -/
  | unexpected (found : String) (expected : Option String)
  deriving DecidableEq, Repr, Inhabited

/-- Why a text is no script, in words. -/
def Malformed.message : Malformed → String
  | openQuote => "Unterminated quoted string"
  | badStream => "Bad fd number"
  | unexpected found expected =>
    found ++ " unexpected" ++ match expected with
      | some e => " (expecting \"" ++ e ++ "\")"
      | none => ""

/-- The octets of a fragment that is written without quotes and stands for itself. -/
def Fragment.literal? : Fragment → Option Octets
  | octets false os => some os
  | _ => none

/-- The text of a word that is written without quotes and stands for itself. -/
def literal? (w : Word) : Option String :=
  (w.mapM Fragment.literal?).map fun parts => String.ofList parts.flatten

/-- The words that mean something where a command starts. -/
def reserved : List String :=
  ["!", "\x7b", "\x7d", "if", "then", "elif", "else", "fi", "for", "while", "until", "do", "done"]

/-- A token as a complaint shows it. -/
def Token.shown : Token → String
  | word w =>
    match (literal? w).filter reserved.contains with
    | some text => "\"" ++ text ++ "\""
    | none => "word"
  | opening => "\"(\""
  | closing => "\")\""
  | pipe => "\"|\""
  | next _ mark => mark
  | redirect .. => "redirection"

/-! ### Words -/

/-- What ends a word without quotes. -/
def endsWord (c : Char) : Bool :=
  Text.isBlank c || c == '\n' || c == ';' || c == '&' || c == '|' || c == '<' || c == '>' ||
    c == '(' || c == ')'

/-- The text up to an octet, and the text after it. -/
def upTo? (c : Char) (os : Octets) : Option (Octets × Octets) :=
  match os.dropWhile (· ≠ c) with
  | _ :: rest => some (os.takeWhile (· ≠ c), rest)
  | [] => none

/-- The text up to the closing parenthesis that belongs to it, and the text after that. The quote
that is open and the number of open parentheses are given. -/
def enclosed? (quote : Option Char) (depth : Nat) : Octets → Option (Octets × Octets)
  | [] => none
  | '\\' :: c :: os =>
    if quote = some '\'' then (enclosed? quote depth (c :: os)).map fun p => ('\\' :: p.1, p.2)
    else (enclosed? quote depth os).map fun p => ('\\' :: c :: p.1, p.2)
  | c :: os =>
    let kept (quote : Option Char) (depth : Nat) :=
      (enclosed? quote depth os).map fun p => (c :: p.1, p.2)
    if quote.isSome then kept (if quote = some c then none else quote) depth
    else if c = '\'' ∨ c = '"' then kept (some c) depth
    else if c = '(' then kept none (depth + 1)
    else if c = ')' then if depth = 0 then some ([], os) else kept none (depth - 1)
    else kept none depth

/-- Whether an octet can be the first of a name. -/
def startsName (c : Char) : Bool := c.isAlpha || c == '_'

/-- Whether an octet can be a later one of a name. -/
def continuesName (c : Char) : Bool := c.isAlphanum || c == '_'

/-- The octets that name a parameter on their own. -/
def isSpecial (c : Char) : Bool := ['?', '$', '#', '@', '*', '!', '-'].contains c || c.isDigit

/-- What a dollar stands for with the text after it, and what is left of that text. -/
def dollar (quoted : Bool) (os : Octets) : Except Malformed (Fragment × Octets) :=
  match os with
  | '(' :: os =>
    match enclosed? none 0 os with
    | some (script, os) => .ok (.output quoted script, os)
    | none => .error (.unexpected "end of file" (some ")"))
  | '{' :: os =>
    match upTo? '}' os with
    | some (name, os) => .ok (.parameter quoted name, os)
    | none => .error (.unexpected "end of file" (some "\x7d"))
  | c :: rest =>
    if isSpecial c then .ok (.parameter quoted [c], rest)
    else if startsName c then
      .ok (.parameter quoted (os.takeWhile continuesName), os.dropWhile continuesName)
    else .ok (.octets quoted ['$'], os)
  | [] => .ok (.octets quoted ['$'], [])

/-- A word, and the text after it. The flag says whether a double quote is open, and the number
bounds the steps. -/
def word : Nat → Bool → Octets → Except Malformed (Word × Octets)
  | 0, _, _ => .error .openQuote
  | _, true, [] => .error .openQuote
  | _, false, [] => .ok ([], [])
  | n + 1, isOpen, c :: os => do
    let more (f : Fragment) (isOpen : Bool) (os : Octets) : Except Malformed (Word × Octets) := do
      let (w, os) ← word n isOpen os
      return (f :: w, os)
    match isOpen, c, os with
    | _, '"', _ => more (.octets true []) (!isOpen) os
    | _, '$', _ => do
      let (f, os) ← dollar isOpen os
      more f isOpen os
    | _, '\x60', _ =>
      match upTo? '\x60' os with
      | some (script, os) => more (.output isOpen script) isOpen os
      | none => .error (.unexpected "end of file" none)
    | true, '\\', d :: rest =>
      let kept := if ['$', '"', '\\', '\x60'].contains d then [d]
        else if d = '\n' then [] else ['\\', d]
      more (.octets true kept) true rest
    | false, '\\', d :: rest => more (.octets true (if d = '\n' then [] else [d])) false rest
    | false, '\'', _ =>
      match upTo? '\'' os with
      | some (text, os) => more (.octets true text) false os
      | none => .error .openQuote
    | _, _, _ =>
      if !isOpen && endsWord c then .ok ([], c :: os) else more (.octets isOpen [c]) isOpen os

/-! ### Tokens -/

/-- A redirection of a stream, and the text after it. -/
def redirection? (stream : Option Nat) : Octets → Option (Token × Octets)
  | '>' :: '&' :: os => some (.redirect (stream.getD 1) true, os)
  | '>' :: '>' :: os | '>' :: '|' :: os | '>' :: os => some (.redirect (stream.getD 1) false, os)
  | '<' :: '&' :: os => some (.redirect (stream.getD 0) true, os)
  | '<' :: os => some (.redirect (stream.getD 0) false, os)
  | _ => none

/-- A mark at the start of a text, and the text after it. -/
def mark? (os : Octets) : Option (Token × Octets) :=
  match os with
  | '&' :: '&' :: os => some (.next .afterSuccess "\"&&\"", os)
  | '|' :: '|' :: os => some (.next .afterFailure "\"||\"", os)
  | '|' :: os => some (.pipe, os)
  | '&' :: os => some (.next .always "\"&\"", os)
  | ';' :: os => some (.next .always "\";\"", os)
  | '\n' :: os => some (.next .always "newline", os)
  | '(' :: os => some (.opening, os)
  | ')' :: os => some (.closing, os)
  | c :: rest =>
    (redirection? none os).or (if c.isDigit then redirection? (Text.digit? c) rest else none)
  | [] => none

/-- The tokens of a script, with a number that bounds the steps. Comments are left out. -/
def tokens : Nat → Octets → Except Malformed (List Token)
  | 0, _ => .error .openQuote
  | n + 1, os =>
    match os.dropWhile Text.isBlank with
    | [] => .ok []
    | '#' :: os => tokens n (os.dropWhile (· ≠ '\n'))
    | '\\' :: '\n' :: os => tokens n os
    | os =>
      match mark? os with
      | some (t, os) => do return t :: (← tokens n os)
      | none => do
        let (w, os) ← word (os.length + 1) false os
        return .word w :: (← tokens n os)

end TemplateStyler.Shell
