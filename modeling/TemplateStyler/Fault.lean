/-!
# Faults

A request on a text or a buffer can be one that has no answer: a position may lie outside the text
or inside a character, a number may leave the range of sizes, a style may fit neither of the modes
around it. Such a request ends in a `Fault` and changes nothing.

* `Size.add` is the addition of sizes, which are numbers below `2 ^ 64`.
-/

namespace TemplateStyler

/-- Why a request has no answer. -/
inductive Fault where
  /-- A position lies outside the text or between the bytes of a character. -/
  | badPosition
  /-- A size does not fit in sixty-four bits. -/
  | tooLarge
  /-- A style is admitted neither by the mode before it nor by the mode after it. -/
  | misplacedStyle
  deriving DecidableEq, Repr, Inhabited

namespace Size

/-- The number of sizes: offsets, lengths, lines and columns lie below it. -/
def bound : Nat := 0x10000000000000000

/-- The number below which integers with a sign lie, and not below whose negative. -/
def signedBound : Nat := 0x8000000000000000

/-- The largest size. -/
def max : Nat := bound - 1

/-- The sum of two sizes, where it is one. -/
def add (a b : Nat) : Except Fault Nat :=
  if a + b < bound then .ok (a + b) else .error .tooLarge

/-- The sum of two sizes, or the largest size where the sum is none. -/
def addCapped (a b : Nat) : Nat := min (a + b) max

theorem add_eq_ok {a b c : Nat} : add a b = .ok c ↔ a + b < bound ∧ c = a + b := by
  unfold add
  split
  · simp_all [eq_comm]
  · simp; omega

end Size

end TemplateStyler
