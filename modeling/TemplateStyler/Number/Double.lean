/-!
# Doubles

The numbers of the binary64 format, as a sign, a mantissa below `2 ^ 53` and an exponent of two.
All that is computed on them is computed on natural numbers.

* `Double.ofDecimal` is the double nearest to a decimal number, the one with an even mantissa where
  two are equally near.
* `Double.shortest` is the fewest digits that stand for a double, and `Double.text` writes them
  without an exponent.
* `Double.roundAway` is the nearest whole number, away from zero where two are equally near.
-/

namespace TemplateStyler

/-- A number of the binary64 format. -/
inductive Double where
  | finite (negative : Bool) (mantissa : Nat) (exponent : Int)
  | infinite (negative : Bool)
  | undefined
  deriving DecidableEq, Repr, Inhabited

namespace Double

/-- The number below which mantissas lie. -/
def mantissaBound : Nat := 0x20000000000000

/-- The least mantissa but at the least exponent. -/
def leastMantissa : Nat := 0x10000000000000

/-- The least exponent of two. -/
def leastExponent : Int := -1074

/-- The largest exponent of two. -/
def greatestExponent : Int := 971

/-- The number `n / d` as a fraction times a power of a base. -/
def scaled (base : Nat) (n : Nat) (exponent : Int) : Nat × Nat :=
  if 0 ≤ exponent then (n * Nat.pow base exponent.toNat, 1) else (n, Nat.pow base (-exponent).toNat)

/-- The whole number nearest to `n / d`, the even one of two equally near. -/
def roundEven (n d : Nat) : Nat :=
  let q := n / d
  let twice := 2 * (n % d)
  if twice < d ∨ (twice = d ∧ q % 2 = 0) then q else q + 1

/-- The double nearest to the positive fraction `n / d`. -/
def ofFraction (negative : Bool) (n d : Nat) : Double :=
  let guess := max ((n.log2 : Int) - d.log2 - 53) leastExponent
  let ratio (e : Int) : Nat × Nat :=
    if 0 ≤ e then (n, d * Nat.pow 2 e.toNat) else (n * Nat.pow 2 (-e).toNat, d)
  let e := if mantissaBound ≤ (ratio guess).1 / (ratio guess).2 then guess + 1 else guess
  let m := roundEven (ratio e).1 (ratio e).2
  let (m, e) := if m = mantissaBound then (leastMantissa, e + 1) else (m, e)
  if greatestExponent < e then .infinite negative else .finite negative m e

/-- The double nearest to `digits * 10 ^ exponent`. Numbers far outside the range of doubles are not
multiplied out. -/
def ofDecimal (negative : Bool) (digits : Nat) (exponent : Int) : Double :=
  let size := ((Nat.toDigits 10 digits).length : Int) + exponent
  if digits = 0 ∨ size < -400 then .finite negative 0 leastExponent
  else if 400 < size then .infinite negative
  else
    let (n, d) := scaled 10 digits exponent
    ofFraction negative n d

/-! ### Writing -/

/-- The number of digits of `n / d` before the point, which is negative for each zero that follows
the point. -/
def wholeDigits (n d : Nat) : Int :=
  if d ≤ n then (Nat.toDigits 10 (n / d)).length
  else -(((List.range 400).find? fun k => d ≤ n * Nat.pow 10 (k + 1)).getD 400 : Nat)

/-- The multiple of `10 ^ places` that is nearest to a double and reads back as it, the larger one
of two equally near. The double is `4 * mantissa * (n / d)`; what reads back as it lies between
`4 * mantissa - below` and `4 * mantissa + 2` times `n / d`, ends included for an even mantissa. -/
def withDigits (mantissa below n d : Nat) (places : Int) : Option (Nat × Int) :=
  let (gn, gd) := scaled 10 1 places
  let value := 4 * mantissa * n * gd
  let step := d * gn
  let low := (4 * mantissa - below) * n * gd
  let high := (4 * mantissa + 2) * n * gd
  let inside (k : Nat) : Bool :=
    if mantissa % 2 = 0 then low ≤ k * step ∧ k * step ≤ high
    else low < k * step ∧ k * step < high
  let k := value / step
  let rest := value % step
  match inside k, inside (k + 1) with
  | true, true => some (if 2 * rest < step then k else k + 1, places)
  | true, false => some (k, places)
  | false, true => some (k + 1, places)
  | false, false => none

/-- The fewest digits that stand for a positive double, as a number and an exponent of ten. -/
def shortest (mantissa : Nat) (exponent : Int) : Nat × Int :=
  let (n, d) := scaled 2 1 (exponent - 2)
  let below := if mantissa = leastMantissa ∧ leastExponent < exponent then 1 else 2
  let whole := wholeDigits (4 * mantissa * n) d
  let found := (List.range 17).findSome? fun k : Nat =>
    withDigits mantissa below n d (whole - (k + 1))
  found.getD (0, 0)

/-- Digits times a power of ten, with a point and without an exponent. -/
def positional (digits : List Char) (exponent : Int) : List Char :=
  let zeros (n : Int) : List Char := List.replicate n.toNat '0'
  let point := digits.length + exponent
  if 0 ≤ exponent then digits ++ zeros exponent
  else if 0 < point then digits.take point.toNat ++ '.' :: digits.drop point.toNat
  else '0' :: '.' :: zeros (-point) ++ digits

/-- A double in decimal digits. -/
def text : Double → List Char
  | .undefined => "NaN".toList
  | .infinite negative => (if negative then ['-'] else []) ++ "inf".toList
  | .finite negative mantissa exponent =>
    (if negative then ['-'] else []) ++
      if mantissa = 0 then ['0']
      else
        let (k, e) := shortest mantissa exponent
        let digits := Nat.toDigits 10 k
        let kept := (digits.reverse.dropWhile (· == '0')).reverse
        positional kept (e + (digits.length - kept.length : Nat))

/-! ### Rounding -/

/-- The whole number nearest to `mantissa * 2 ^ exponent`, the larger one of two equally near. -/
def roundUp (mantissa : Nat) (exponent : Int) : Nat :=
  if 0 ≤ exponent then mantissa * Nat.pow 2 exponent.toNat
  else
    let d := Nat.pow 2 (-exponent).toNat
    (2 * mantissa + d) / (2 * d)

/-- The size nearest to a double, where `bound` is the largest one; negative numbers give zero. -/
def toSize (bound : Nat) : Double → Nat
  | .undefined | .infinite true | .finite true _ _ => 0
  | .infinite false => bound
  | .finite false mantissa exponent => min (roundUp mantissa exponent) bound

end Double

end TemplateStyler
