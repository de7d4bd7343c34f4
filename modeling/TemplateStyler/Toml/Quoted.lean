import TemplateStyler.Text.Basic
import TemplateStyler.Text.Digit

/-!
# Quoted texts of TOML

A text stands between double quotes, where a backslash escapes, or between single quotes, where all
stands for itself. Three quotes on both sides let it go over several lines.

* `Toml.quoted?` reads a text on one line, `Toml.anyQuoted?` also one over several lines.

Readers take a text and give back what they read and the rest of the text.
-/

namespace TemplateStyler.Toml

/-- A character other than a control character; the tab is one that is not. -/
def isPlain (c : Char) : Bool := c == '\t' || (0x20 ≤ c.toNat && c.toNat != 0x7F)

/-- A character in front of a text that was read. -/
def consTo (c : Char) (r : Option (List Char × List Char)) : Option (List Char × List Char) :=
  r.map fun p => (c :: p.1, p.2)

/-- The character that a letter after a backslash stands for. -/
def escaped? : Char → Option Char
  | '"' => some '"'
  | '\\' => some '\\'
  | 'b' => some '\x08'
  | 'f' => some '\x0c'
  | 'n' => some '\n'
  | 'r' => some '\r'
  | 't' => some '\t'
  | _ => none

/-- The character with a hexadecimal number. -/
def scalar? (digits : List Char) : Option Char :=
  let n := Text.ofDigits 16 digits
  if digits.all (Text.isDigitOf 16) ∧ n.isValidChar then some (Char.ofNat n) else none

/-- A text up to its double quote, on one line. -/
def basic? : List Char → Option (List Char × List Char)
  | [] => none
  | '"' :: cs => some ([], cs)
  | '\\' :: 'u' :: a :: b :: c :: d :: cs =>
    (scalar? [a, b, c, d]).bind fun x => consTo x (basic? cs)
  | '\\' :: 'U' :: a :: b :: c :: d :: e :: f :: g :: h :: cs =>
    (scalar? [a, b, c, d, e, f, g, h]).bind fun x => consTo x (basic? cs)
  | '\\' :: e :: cs => (escaped? e).bind fun x => consTo x (basic? cs)
  | c :: cs => if isPlain c then consTo c (basic? cs) else none

/-- A text up to its single quote, on one line. -/
def literal? : List Char → Option (List Char × List Char)
  | [] => none
  | '\'' :: cs => some ([], cs)
  | c :: cs => if isPlain c then consTo c (literal? cs) else none

/-- A text in quotes, on one line. -/
def quoted? : List Char → Option (List Char × List Char)
  | '"' :: cs => basic? cs
  | '\'' :: cs => literal? cs
  | _ => none

/-- Whether a text starts with a line end, blanks aside. -/
def endsLine (cs : List Char) : Bool :=
  match cs.dropWhile Text.isBlank with
  | '\n' :: _ => true
  | '\r' :: '\n' :: _ => true
  | _ => false

/-- A text up to its three double quotes, of which two more may stand for themselves. A backslash at
a line end skips all blanks and line ends after it, which the flag says. -/
def basicLines? : Bool → List Char → Option (List Char × List Char)
  | _, [] => none
  | true, '\n' :: cs => basicLines? true cs
  | true, '\r' :: '\n' :: cs => basicLines? true cs
  | true, ' ' :: cs => basicLines? true cs
  | true, '\t' :: cs => basicLines? true cs
  | _, '"' :: '"' :: '"' :: '"' :: '"' :: cs => some (['"', '"'], cs)
  | _, '"' :: '"' :: '"' :: '"' :: cs => some (['"'], cs)
  | _, '"' :: '"' :: '"' :: cs => some ([], cs)
  | _, '\\' :: 'u' :: a :: b :: c :: d :: cs =>
    (scalar? [a, b, c, d]).bind fun x => consTo x (basicLines? false cs)
  | _, '\\' :: 'U' :: a :: b :: c :: d :: e :: f :: g :: h :: cs =>
    (scalar? [a, b, c, d, e, f, g, h]).bind fun x => consTo x (basicLines? false cs)
  | _, '\\' :: e :: cs =>
    if endsLine (e :: cs) then basicLines? true (e :: cs)
    else (escaped? e).bind fun x => consTo x (basicLines? false cs)
  | _, '\r' :: '\n' :: cs => consTo '\n' (basicLines? false cs)
  | _, c :: cs => if isPlain c ∨ c = '\n' then consTo c (basicLines? false cs) else none

/-- A text up to its three single quotes, of which two more may stand for themselves. -/
def literalLines? : List Char → Option (List Char × List Char)
  | [] => none
  | '\'' :: '\'' :: '\'' :: '\'' :: '\'' :: cs => some (['\'', '\''], cs)
  | '\'' :: '\'' :: '\'' :: '\'' :: cs => some (['\''], cs)
  | '\'' :: '\'' :: '\'' :: cs => some ([], cs)
  | '\r' :: '\n' :: cs => consTo '\n' (literalLines? cs)
  | c :: cs => if isPlain c ∨ c = '\n' then consTo c (literalLines? cs) else none

/-- The text without a line end at its start. -/
def dropLineEnd : List Char → List Char
  | '\n' :: cs => cs
  | '\r' :: '\n' :: cs => cs
  | cs => cs

/-- A text in quotes, on one line or over several. -/
def anyQuoted? : List Char → Option (List Char × List Char)
  | '"' :: '"' :: '"' :: cs => basicLines? false (dropLineEnd cs)
  | '\'' :: '\'' :: '\'' :: cs => literalLines? (dropLineEnd cs)
  | cs => quoted? cs

end TemplateStyler.Toml
