import TemplateStyler.Fault
import TemplateStyler.Number.Double
import TemplateStyler.Text.Digit

/-!
# Numbers of TOML

Digits may be grouped by single underscores. A whole number is written in base ten, sixteen, eight
or two and fits in sixty-four bits with a sign; a number with a point or an exponent is a double.

* `Toml.whole?` and `Toml.real?` read a whole number and a double.
-/

namespace TemplateStyler.Toml

/-- A sign where there is one: whether it is a minus, and the text after it. -/
def sign : List Char → Bool × List Char
  | '+' :: cs => (false, cs)
  | '-' :: cs => (true, cs)
  | cs => (false, cs)

/-- Digits and the underscores between them; the underscores are dropped. -/
def moreDigits (isDigit : Char → Bool) : List Char → List Char × List Char
  | '_' :: c :: cs =>
    if isDigit c then
      let (digits, rest) := moreDigits isDigit cs
      (c :: digits, rest)
    else ([], '_' :: c :: cs)
  | c :: cs =>
    if isDigit c then
      let (digits, rest) := moreDigits isDigit cs
      (c :: digits, rest)
    else ([], c :: cs)
  | [] => ([], [])

/-- One or more digits. -/
def digits? (isDigit : Char → Bool) : List Char → Option (List Char × List Char)
  | c :: cs =>
    if isDigit c then
      let (digits, rest) := moreDigits isDigit cs
      some (c :: digits, rest)
    else none
  | [] => none

/-- The digits of a whole number in base ten, which has no leading zeros. -/
def plainDigits? : List Char → Option (List Char × List Char)
  | '0' :: cs => some (['0'], cs)
  | cs => digits? Char.isDigit cs

/-- A whole number of a base, as a number of sixty-four bits. -/
def inBase? (base : Nat) (cs : List Char) : Option (Int × List Char) := do
  let (digits, rest) ← digits? (Text.isDigitOf base) cs
  let n := Text.ofDigits base digits
  if n < Size.signedBound then some (n, rest) else none

/-- A whole number. Only numbers of base ten have a sign. -/
def whole? : List Char → Option (Int × List Char)
  | '0' :: 'x' :: cs => inBase? 16 cs
  | '0' :: 'o' :: cs => inBase? 8 cs
  | '0' :: 'b' :: cs => inBase? 2 cs
  | cs => do
    let (negative, cs) := sign cs
    let (digits, rest) ← plainDigits? cs
    let n := Text.ofDigits 10 digits
    let value : Int := if negative then -n else n
    if -Size.signedBound ≤ value ∧ value < Size.signedBound then some (value, rest) else none

/-- An exponent where there is one. -/
def exponent? : List Char → Option (Option Int × List Char)
  | c :: cs =>
    if c == 'e' || c == 'E' then do
      let (negative, cs) := sign cs
      let (digits, rest) ← digits? Char.isDigit cs
      let n := Text.ofDigits 10 digits
      return (some (if negative then -n else n), rest)
    else some (none, c :: cs)
  | [] => some (none, [])

/-- The digits after a point where there is one. -/
def decimals? : List Char → Option (Option (List Char) × List Char)
  | '.' :: cs => (digits? Char.isDigit cs).map fun p => (some p.1, p.2)
  | cs => some (none, cs)

/-- A double: infinite, undefined, or a number with a point or an exponent. A positive number must
not be too large. -/
def real? (cs : List Char) : Option (Double × List Char) := do
  let (negative, cs) := sign cs
  match cs with
  | 'i' :: 'n' :: 'f' :: cs => return (.infinite negative, cs)
  | 'n' :: 'a' :: 'n' :: cs => return (.undefined, cs)
  | cs =>
    let (digits, cs) ← plainDigits? cs
    let (decimals, cs) ← decimals? cs
    let (exponent, cs) ← exponent? cs
    if decimals.isNone && exponent.isNone then none
    let decimals := decimals.getD []
    let value := Double.ofDecimal negative (Text.ofDigits 10 (digits ++ decimals))
      (exponent.getD 0 - decimals.length)
    if value = .infinite false then none else some (value, cs)

end TemplateStyler.Toml
