import TemplateStyler.Program.Escape

/-!
# Exchanging octets

* `Program.tr` replaces octets of one set by those of another, or drops them.
* `Program.members` are the octets of a set in their order.
-/

namespace TemplateStyler.Program

/-- The octets from one to another. -/
def range (first last : Char) : Octets :=
  (List.range (last.toNat + 1 - first.toNat)).map fun k => Char.ofNat (first.toNat + k)

/-- The octets of a class. -/
def classMembers? (name : String) : Option Octets :=
  match name with
  | "lower" => some (range 'a' 'z')
  | "upper" => some (range 'A' 'Z')
  | "digit" => some (range '0' '9')
  | "alpha" => some (range 'A' 'Z' ++ range 'a' 'z')
  | "alnum" => some (range '0' '9' ++ range 'A' 'Z' ++ range 'a' 'z')
  | "blank" => some ['\t', ' ']
  | "space" => some (range '\t' '\r' ++ [' '])
  | _ => none

/-- The octets of a set without classes: single octets and ranges. -/
def plainMembers : Octets → Octets
  | a :: '-' :: b :: os => range a b ++ plainMembers os
  | a :: os => a :: plainMembers os
  | [] => []

/-- The octets of a set. -/
def members (set : Octets) : Octets :=
  let name := (set.drop 2).dropLast.dropLast
  match classMembers? (String.ofList name) with
  | some os => if set = ['[', ':'] ++ name ++ [':', ']'] then os else plainMembers set
  | none => plainMembers (unescape false set).1

/-- An octet after the exchange of sets; the last octet of the second set stands also for all that
it lacks. -/
def exchanged (old new : Octets) (c : Char) : Char :=
  match old.reverse.idxOf? c with
  | none => c
  | some k => new.getD (old.length - 1 - k) (new.getLastD c)

/-- The octets with each run of equal octets of a set shortened to one. -/
def squeezed (set : Octets) : Octets → Octets
  | a :: b :: os =>
    if a = b ∧ a ∈ set then squeezed set (b :: os) else a :: squeezed set (b :: os)
  | os => os

/-- The input with octets exchanged, dropped, or shortened to one. -/
def tr : Program := fun _ arguments input =>
  match arguments with
  | [['-', 'd'], set] => { out := input.filter fun c => !(members set).contains c }
  | [['-', 's'], set] => { out := squeezed (members set) input }
  | [old, new] =>
    if new.isEmpty then complain 1 "tr: when not truncating set1, string2 must be non-empty" input
    else { out := input.map (exchanged (members old) (members new)) }
  | _ => complain 1 "tr: missing operand\nTry 'tr --help' for more information." input

end TemplateStyler.Program
