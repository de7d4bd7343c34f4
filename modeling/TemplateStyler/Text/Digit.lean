/-!
# Digits

* `Text.digit?` is the value of a digit, letters standing for ten and more.
* `Text.ofDigits` is the number that digits write in a base.
* `Text.decimal?` reads a natural number that is written in decimal digits and nothing else.
-/

namespace TemplateStyler.Text

/-- The value of a hexadecimal digit. -/
def digit? (c : Char) : Option Nat :=
  if c.isDigit then some (c.toNat - '0'.toNat)
  else if 'a' ≤ c ∧ c ≤ 'f' then some (c.toNat - 'a'.toNat + 10)
  else if 'A' ≤ c ∧ c ≤ 'F' then some (c.toNat - 'A'.toNat + 10)
  else none

/-- Whether a character is a digit of a base up to sixteen. -/
def isDigitOf (base : Nat) (c : Char) : Bool :=
  match digit? c with
  | some n => n < base
  | none => false

/-- The number that digits write in a base, the most significant one first. -/
def ofDigits (base : Nat) (digits : List Char) : Nat :=
  digits.foldl (fun n c => base * n + (digit? c).getD 0) 0

/-- The value of decimal digits, where there is nothing else and at least one. -/
def decimal? (digits : List Char) : Option Nat :=
  if digits.isEmpty || !digits.all Char.isDigit then none else some (ofDigits 10 digits)

end TemplateStyler.Text
