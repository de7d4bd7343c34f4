import TemplateStyler.Json.Value
import TemplateStyler.Text.Digit

/-!
# Reading JSON

* `Json.read?` reads a text that holds one value and white space around it, and nothing else.

The readers below take a text and give back what they read and the rest of the text. Readers of
nested values count down a number of steps, which `read?` sets higher than a text of that length can
use.
-/

namespace TemplateStyler.Json

/-- White space between the parts of a value. -/
def isFiller (c : Char) : Bool := c == ' ' || c == '\n' || c == '\t' || c == '\r'

/-- The text after white space. -/
def skip (cs : List Char) : List Char := cs.dropWhile isFiller

/-! ### Strings -/

/-- The value of four hexadecimal digits. -/
def hex4? (digits : List Char) : Option Nat :=
  if digits.all (Text.isDigitOf 16) then some (Text.ofDigits 16 digits) else none

/-- A code unit in front of pieces: two halves of a surrogate pair make one character. -/
def joinUnit (unit : Nat) (pieces : List Piece) : List Piece :=
  if 0xD800 ≤ unit ∧ unit < 0xDC00 then
    match pieces with
    | .half low :: rest =>
      if 0xDC00 ≤ low then
        .char (Char.ofNat (0x10000 + (unit - 0xD800) * 0x400 + (low - 0xDC00))) :: rest
      else .half unit :: pieces
    | _ => .half unit :: pieces
  else if 0xDC00 ≤ unit ∧ unit < 0xE000 then .half unit :: pieces
  else .char (Char.ofNat unit) :: pieces

/-- The character that a letter after a backslash stands for. -/
def escaped? : Char → Option Char
  | '"' => some '"'
  | '\\' => some '\\'
  | '/' => some '/'
  | 'b' => some '\x08'
  | 'f' => some '\x0c'
  | 'n' => some '\n'
  | 'r' => some '\r'
  | 't' => some '\t'
  | _ => none

/-- The pieces of a string up to its closing quote, and the text after it. -/
def pieces? : List Char → Option (List Piece × List Char)
  | [] => none
  | '"' :: cs => some ([], cs)
  | '\\' :: 'u' :: a :: b :: c :: d :: cs => do
    let unit ← hex4? [a, b, c, d]
    let (rest, cs) ← pieces? cs
    return (joinUnit unit rest, cs)
  | '\\' :: e :: cs => do
    let c ← escaped? e
    let (rest, cs) ← pieces? cs
    return (.char c :: rest, cs)
  | c :: cs =>
    if c.toNat < 32 then none
    else do
      let (rest, cs) ← pieces? cs
      return (.char c :: rest, cs)

/-! ### Numbers -/

/-- Digits, one or more, and the text after them. -/
def digits? (cs : List Char) : Option (List Char × List Char) :=
  let digits := cs.takeWhile Char.isDigit
  if digits.isEmpty then none else some (digits, cs.dropWhile Char.isDigit)

/-- A sign where there is one, and the text after it. -/
def sign (signs : List Char) : List Char → List Char × List Char
  | c :: cs => if signs.contains c then ([c], cs) else ([], c :: cs)
  | [] => ([], [])

/-- A number, and the text after it. Its digits before the point have no leading zero. -/
def number? (cs : List Char) : Option (List Char × List Char) := do
  let (minus, cs) := sign ['-'] cs
  let (whole, cs) ← digits? cs
  if 1 < whole.length ∧ whole.head? = some '0' then none
  let (fraction, cs) ← match cs with
    | '.' :: cs => (digits? cs).map fun p => ('.' :: p.1, p.2)
    | cs => some ([], cs)
  let (exponent, cs) ← match cs with
    | c :: rest =>
      if c == 'e' || c == 'E' then
        let (sign, rest) := sign ['+', '-'] rest
        (digits? rest).map fun p => (c :: sign ++ p.1, p.2)
      else some ([], c :: rest)
    | [] => some ([], [])
  return (minus ++ whole ++ fraction ++ exponent, cs)

/-! ### Values -/

mutual

/-- A value, and the text after it. -/
def value? : Nat → List Char → Option (Json × List Char)
  | 0, _ => none
  | n + 1, cs =>
    match skip cs with
    | 'n' :: 'u' :: 'l' :: 'l' :: cs => some (.null, cs)
    | 't' :: 'r' :: 'u' :: 'e' :: cs => some (.bool true, cs)
    | 'f' :: 'a' :: 'l' :: 's' :: 'e' :: cs => some (.bool false, cs)
    | '"' :: cs => (pieces? cs).map fun p => (.string p.1, p.2)
    | '[' :: cs =>
      match skip cs with
      | ']' :: cs => some (.array [], cs)
      | cs => (items? n cs).map fun p => (.array p.1, p.2)
    | '{' :: cs =>
      match skip cs with
      | '}' :: cs => some (.object [], cs)
      | cs => (members? n cs).map fun p => (.object p.1, p.2)
    | cs => (number? cs).map fun p => (.number p.1, p.2)

/-- The items of an array up to its closing bracket, and the text after it. -/
def items? : Nat → List Char → Option (List Json × List Char)
  | 0, _ => none
  | n + 1, cs => do
    let (v, cs) ← value? n cs
    match skip cs with
    | ',' :: cs =>
      let (vs, cs) ← items? n cs
      return (v :: vs, cs)
    | ']' :: cs => return ([v], cs)
    | _ => none

/-- The members of an object up to its closing brace, and the text after it. -/
def members? : Nat → List Char → Option (List (List Piece × Json) × List Char)
  | 0, _ => none
  | n + 1, cs =>
    match skip cs with
    | '"' :: cs => do
      let (key, cs) ← pieces? cs
      match skip cs with
      | ':' :: cs =>
        let (v, cs) ← value? n cs
        match skip cs with
        | ',' :: cs =>
          let (ms, cs) ← members? n cs
          return ((key, v) :: ms, cs)
        | '}' :: cs => return ([(key, v)], cs)
        | _ => none
      | _ => none
    | _ => none

end

/-- The value that a text holds. -/
def read? (cs : List Char) : Option Json := do
  let (v, rest) ← value? (2 * cs.length + 2) cs
  if (skip rest).isEmpty then some v else none

end TemplateStyler.Json
