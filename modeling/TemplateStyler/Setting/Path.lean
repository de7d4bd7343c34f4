import TemplateStyler.Setting.Merge
import TemplateStyler.Text.Digit

/-!
# Paths to settings

A path names a setting in nested tables and lists: names with points between them, and places in
lists in brackets. Places below zero count from the end.

* `Setting.Path.read?` reads a path.
* `Setting.place` puts a setting at the end of a path and makes what is missing on the way.
-/

namespace TemplateStyler.Setting

/-- A step of a path. -/
inductive Step where
  | name (name : Text)
  | place (index : Int)
  deriving DecidableEq, Repr, Inhabited

namespace Path

/-- Characters of names in paths. -/
def isNamed (c : Char) : Bool := c.isAlphanum || c == '_' || c == '-' || c == ' '

/-- A name, and the text after it. -/
def name? (cs : List Char) : Option (Step × List Char) :=
  let name := cs.takeWhile isNamed
  if name.isEmpty then none else some (.name name, cs.dropWhile isNamed)

/-- A place in a list up to its closing bracket, as a number of sixty-four bits with a sign, and the
text after it. -/
def place? (cs : List Char) : Option (Step × List Char) :=
  let cs := cs.dropWhile Text.isBlank
  let (negative, cs) := match cs with
    | '-' :: cs => (true, cs)
    | cs => (false, cs)
  let after := (cs.dropWhile Char.isDigit).dropWhile Text.isBlank
  match Text.decimal? (cs.takeWhile Char.isDigit), after with
  | some n, ']' :: rest =>
    let index : Int := if negative then -n else n
    if -Size.signedBound ≤ index ∧ index < Size.signedBound then some (.place index, rest) else none
  | _, _ => none

/-- The steps after the first one. Each takes a character at least, and the number counts them. -/
def more? : Nat → List Char → Option (List Step)
  | _, [] => some []
  | 0, _ => none
  | n + 1, c :: cs => do
    let (step, rest) ← if c = '.' then name? cs else if c = '[' then place? cs else none
    return step :: (← more? n rest)

/-- A path. It starts with a name. -/
def read? (cs : List Char) : Option (List Step) := do
  let (step, rest) ← name? cs
  return step :: (← more? rest.length rest)

end Path

/-- The number of items that no list can have. -/
def tooManyItems : Nat := 0x100000000000000

/-- The number of an item among a number of items. -/
def itemNumber (count : Nat) : Int → Except Fault Nat
  | .ofNat n => if n < tooManyItems then .ok n else .error .tooLarge
  | .negSucc n => if n < count then .ok (count - (n + 1)) else .error .badPosition

/-- The setting at the start of a path after another one was put at its end, where the setting at
the start may be missing. A name makes a table and a place makes a list of what is none. -/
def place (v : Setting) : List Step → Option Setting → Except Fault Setting
  | [], old => .ok (overlay (old.getD (.table [])) v)
  | .name name :: steps, old => do
    let es := (old.getD .nothing).entries
    let new ← place v steps (lookup (lowerCase name) es)
    return .table (assign (lowerCase name) new es)
  | .place index :: steps, old => do
    let xs := (old.getD .nothing).items
    let n ← itemNumber xs.length index
    let xs := xs ++ List.replicate (n + 1 - xs.length) .nothing
    let new ← if steps.isEmpty then pure v else place v steps xs[n]?
    return .list (xs.set n new)

end TemplateStyler.Setting
