import TemplateStyler.Program.Exchange

/-!
# Patterns

A pattern describes pieces of a line: octets, sets of octets in brackets, a point for any octet, a
star for as many as there are, and a caret and a dollar for the ends of the line.

* `Pattern.read?` reads a pattern, `Pattern.find?` finds the first place that it fits.
-/

namespace TemplateStyler

/-- What one octet may be. -/
inductive Single where
  | octet (c : Char)
  | any
  | oneOf (negated : Bool) (members : Octets)
  deriving DecidableEq, Repr, Inhabited

/-- Whether an octet is one that is allowed. -/
def Single.fits : Single → Char → Bool
  | .octet c, x => x == c
  | .any, _ => true
  | .oneOf negated members, x => members.contains x != negated

/-- How often an octet may come. -/
inductive Times where
  | once
  | optional
  | any
  | some
  deriving DecidableEq, Repr, Inhabited

/-- A pattern: what the octets are and how often they come, and whether it has to fit at the start
and at the end of a line. -/
structure Pattern where
  atStart : Bool
  parts : List (Single × Times)
  atEnd : Bool
  deriving DecidableEq, Repr, Inhabited

namespace Pattern

/-- The members of a set in brackets up to its closing bracket, which may come first, and the text
after it. -/
def readSet? (os : Octets) : Option (Single × Octets) :=
  let negated := os.head? = some '^'
  let os := if negated then os.drop 1 else os
  let first := os.take 1
  let more := (os.drop 1).takeWhile (· ≠ ']')
  match (os.drop 1).dropWhile (· ≠ ']') with
  | _ :: rest => some (.oneOf negated (Program.plainMembers (first ++ more)), rest)
  | [] => none

/-- How often the octet before a text may come, and the text after that. -/
def readTimes : Octets → Times × Octets
  | '*' :: os => (.any, os)
  | '\\' :: '+' :: os => (.some, os)
  | '\\' :: '?' :: os => (.optional, os)
  | os => (.once, os)

/-- The parts of a pattern and whether it ends with a dollar. -/
def readParts? : Nat → Octets → Option (List (Single × Times) × Bool)
  | 0, _ => none
  | _, [] => some ([], false)
  | _, ['$'] => some ([], true)
  | n + 1, c :: os => do
    let (single, os) ← match c, os with
      | '[', os => readSet? os
      | '.', os => some (.any, os)
      | '\\', 'n' :: os => some (.octet '\n', os)
      | '\\', 't' :: os => some (.octet '\t', os)
      | '\\', x :: os => if x = '(' ∨ x = ')' ∨ x = '\x7b' then none else some (.octet x, os)
      | '\\', [] => none
      | c, os => some (.octet c, os)
    let (times, os) := readTimes os
    let (parts, atEnd) ← readParts? n os
    return ((single, times) :: parts, atEnd)

/-- A pattern. -/
def read? (os : Octets) : Option Pattern := do
  let atStart := os.head? = some '^'
  let os := if atStart then os.drop 1 else os
  let (parts, atEnd) ← readParts? (os.length + 1) os
  return ⟨atStart, parts, atEnd⟩

/-! ### Fitting -/

/-- The rest of a text after as many octets as possible, after which the rest of the pattern fits.
-/
def longest (single : Single) (next : Octets → Option Octets) : Octets → Option Octets
  | [] => next []
  | c :: os =>
    if single.fits c then (longest single next os).or (next (c :: os)) else next (c :: os)

/-- The rest of a text after one octet, after which the rest of the pattern fits. -/
def one (single : Single) (next : Octets → Option Octets) : Octets → Option Octets
  | [] => none
  | c :: os => if single.fits c then next os else none

/-- The rest of a text after what parts fit. -/
def after? (atEnd : Bool) : List (Single × Times) → Octets → Option Octets
  | [], os => if atEnd ∧ os ≠ [] then none else some os
  | (single, .once) :: parts, os => one single (after? atEnd parts) os
  | (single, .optional) :: parts, os =>
    (one single (after? atEnd parts) os).or (after? atEnd parts os)
  | (single, .any) :: parts, os => longest single (after? atEnd parts) os
  | (single, .some) :: parts, os => one single (longest single (after? atEnd parts)) os

/-- The octets before the first place that a pattern fits, those that it fits there, and those after
them. The flag says whether the text starts a line. -/
def find? (p : Pattern) (atStart : Bool) : Octets → Option (Octets × Octets × Octets)
  | [] => if p.atStart && !atStart then none
    else (after? p.atEnd p.parts []).map fun rest => ([], [], rest)
  | c :: os =>
    match if p.atStart && !atStart then none else after? p.atEnd p.parts (c :: os) with
    | some rest => some ([], (c :: os).take (os.length + 1 - rest.length), rest)
    | none => (find? p false os).map fun f => (c :: f.1, f.2)

end Pattern

end TemplateStyler
