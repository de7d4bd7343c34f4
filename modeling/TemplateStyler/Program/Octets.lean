import TemplateStyler.Text.Basic

/-!
# Octets

What goes in and out of programs are octets. An octet is written as the character with its number,
so that octets of ASCII look like the text that they stand for.

* `Octets.ofText` is the UTF-8 form of a text.
* `Octets.toText` reads UTF-8. An octet that fits nowhere, and a sequence that breaks off, gives the
  replacement character.
-/

namespace TemplateStyler

/-- A list of octets. -/
abbrev Octets := List Char

namespace Octets

/-- The UTF-8 form of a text. -/
def ofText (text : Text) : Octets :=
  text.flatMap fun c => (String.utf8EncodeChar c).map fun b => Char.ofNat b.toNat

/-- The character for what is not UTF-8. -/
def replacement : Char := '\uFFFD'

/-- Whether an octet lies in a range. -/
def isIn (least greatest : Nat) (c : Char) : Bool := least ≤ c.toNat && c.toNat ≤ greatest

/-- Whether an octet continues a sequence. -/
def isNext : Char → Bool := isIn 0x80 0xBF

/-- The octets that may follow the first one of a sequence of three. -/
def second3 (first : Nat) : Char → Bool :=
  if first = 0xE0 then isIn 0xA0 0xBF else if first = 0xED then isIn 0x80 0x9F else isNext

/-- The octets that may follow the first one of a sequence of four. -/
def second4 (first : Nat) : Char → Bool :=
  if first = 0xF0 then isIn 0x90 0xBF else if first = 0xF4 then isIn 0x80 0x8F else isNext

/-- The six bits of an octet that continues a sequence. -/
def bits (c : Char) : Nat := c.toNat % 0x40

/-- The character that starts with an octet, and how many of the octets after it belong to it. -/
def character (a : Char) (rest : Octets) : Char × Nat :=
  let n := a.toNat
  if n < 0x80 then (a, 0)
  else if isIn 0xC2 0xDF a then
    match rest with
    | b :: _ => if isNext b then (Char.ofNat (n % 0x20 * 0x40 + bits b), 1) else (replacement, 0)
    | [] => (replacement, 0)
  else if isIn 0xE0 0xEF a then
    match rest with
    | b :: c :: _ =>
      if second3 n b then
        if isNext c then (Char.ofNat ((n % 0x10 * 0x40 + bits b) * 0x40 + bits c), 2)
        else (replacement, 1)
      else (replacement, 0)
    | [b] => (replacement, if second3 n b then 1 else 0)
    | [] => (replacement, 0)
  else if isIn 0xF0 0xF4 a then
    match rest with
    | b :: rest =>
      if second4 n b then
        match rest with
        | c :: d :: _ =>
          if isNext c then
            if isNext d then
              (Char.ofNat (((n % 8 * 0x40 + bits b) * 0x40 + bits c) * 0x40 + bits d), 3)
            else (replacement, 2)
          else (replacement, 1)
        | [c] => (replacement, if isNext c then 2 else 1)
        | [] => (replacement, 1)
      else (replacement, 0)
    | [] => (replacement, 0)
  else (replacement, 0)

/-- The text that octets are the UTF-8 form of. -/
def toText : Octets → Text
  | [] => []
  | a :: rest =>
    let (c, used) := character a rest
    c :: toText (rest.drop used)
termination_by os => os.length
decreasing_by rw [List.length_drop, List.length_cons]; omega

/-- The octets of a text of ASCII. -/
def ofString (s : String) : Octets := s.toList

end Octets

end TemplateStyler
