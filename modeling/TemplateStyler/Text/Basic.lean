import TemplateStyler.Fault

/-!
# Texts and their bytes

A text is the list of its characters. Positions in it count the bytes of its UTF-8 form, so that not
every number is a position: `cut?` splits a text at a position and refuses any other number.

* `byteSize` is additive (`byteSize_append`), and `cut?` returns two parts that make up the text,
  the first of the size asked for (`eq_append_of_cut?`).
* `floorBoundary` is the last position at or before a number (`floorBoundary_le`).
* `isSpace` is the white space of Unicode, `isBlank` the space and the tab; `trim` drops white
  space.
-/

namespace TemplateStyler

/-- A text, as the list of its characters. -/
abbrev Text := List Char

namespace Text

/-! ### Bytes -/

/-- The number of bytes of a text in UTF-8. -/
def byteSize : List Char → Nat
  | [] => 0
  | c :: cs => c.utf8Size + byteSize cs

@[simp] theorem byteSize_nil : byteSize [] = 0 := rfl

@[simp] theorem byteSize_cons (c : Char) (cs : List Char) :
    byteSize (c :: cs) = c.utf8Size + byteSize cs := rfl

@[simp] theorem byteSize_append (a b : List Char) :
    byteSize (a ++ b) = byteSize a + byteSize b := by
  induction a with
  | nil => simp
  | cons c cs ih => simp [ih, Nat.add_assoc]

/-- The parts of a text before and after a byte position; `none` where the number is no position. -/
def cut? : List Char → Nat → Option (List Char × List Char)
  | cs, 0 => some ([], cs)
  | [], _ + 1 => none
  | c :: cs, n + 1 =>
    if c.utf8Size ≤ n + 1 then (cut? cs (n + 1 - c.utf8Size)).map fun p => (c :: p.1, p.2) else none

theorem eq_append_of_cut? {cs a b : List Char} {n : Nat} (h : cut? cs n = some (a, b)) :
    cs = a ++ b ∧ byteSize a = n := by
  fun_induction cut? cs n generalizing a b with
  | case1 cs => simp_all
  | case2 => simp at h
  | case3 c cs n hc ih =>
    obtain ⟨⟨x, y⟩, hxy, heq⟩ := Option.map_eq_some_iff.1 h
    simp only [Prod.mk.injEq] at heq
    obtain ⟨rfl, rfl⟩ := heq
    obtain ⟨rfl, hsize⟩ := ih hxy
    refine ⟨rfl, ?_⟩
    simp only [byteSize_cons, hsize]
    omega
  | case4 => simp at h

/-- Whether a number is a position of the text. -/
def isBoundary (cs : List Char) (n : Nat) : Bool := (cut? cs n).isSome

/-- The longest start of a text that takes at most a number of bytes. -/
def upTo : List Char → Nat → List Char
  | [], _ => []
  | c :: cs, n => if c.utf8Size ≤ n then c :: upTo cs (n - c.utf8Size) else []

/-- The last position of the text at or before a number. -/
def floorBoundary (cs : List Char) (n : Nat) : Nat := byteSize (upTo cs n)

theorem floorBoundary_le (cs : List Char) (n : Nat) : floorBoundary cs n ≤ n := by
  unfold floorBoundary
  induction cs generalizing n with
  | nil => simp [upTo]
  | cons c cs ih =>
    simp only [upTo]
    split
    · have := ih (n - c.utf8Size)
      simp only [byteSize_cons]
      omega
    · simp

/-- The parts of a text before and after a byte position, where it is one. -/
def cut (cs : List Char) (n : Nat) : Except Fault (List Char × List Char) :=
  match cut? cs n with
  | some parts => .ok parts
  | none => .error .badPosition

/-- The part of a text from one byte position to a later one. -/
def slice? (cs : List Char) (start stop : Nat) : Option (List Char) := do
  if stop < start then none
  let (_, rest) ← cut? cs start
  let (middle, _) ← cut? rest (stop - start)
  some middle

/-! ### White space -/

/-- The white space of Unicode. -/
def isSpace (c : Char) : Bool :=
  let n := c.toNat
  (9 ≤ n && n ≤ 13) || n == 0x20 || n == 0x85 || n == 0xA0 || n == 0x1680
    || (0x2000 ≤ n && n ≤ 0x200A) || n == 0x2028 || n == 0x2029 || n == 0x202F || n == 0x205F
    || n == 0x3000

/-- A space or a tab. -/
def isBlank (c : Char) : Bool := c == ' ' || c == '\t'

/-- A carriage return or a newline. -/
def isLineEnd (c : Char) : Bool := c == '\r' || c == '\n'

/-- The text without its longest ending all of whose characters pass the test. -/
def dropEndWhile (p : Char → Bool) (cs : List Char) : List Char := (cs.reverse.dropWhile p).reverse

/-- The text without leading white space. -/
def trimStart (cs : List Char) : List Char := cs.dropWhile isSpace

/-- The text without trailing white space. -/
def trimEnd (cs : List Char) : List Char := dropEndWhile isSpace cs

/-- The text without leading and trailing white space. -/
def trim (cs : List Char) : List Char := trimEnd (trimStart cs)

/-- The number of characters at the start of a text that pass the test. -/
def run (p : Char → Bool) (cs : List Char) : Nat := (cs.takeWhile p).length

/-! ### Words without an order of their own -/

/-- The text without a given ending, where it has it. -/
def dropSuffix? (suffix cs : List Char) : Option (List Char) :=
  if suffix.isSuffixOf cs then some (cs.take (cs.length - suffix.length)) else none

/-- The text without a given start, where it has it. -/
def dropPrefix? (start cs : List Char) : Option (List Char) :=
  if start.isPrefixOf cs then some (cs.drop start.length) else none

/-- Every occurrence of a text replaced by another, from left to right; between any two characters,
where the text sought is empty. -/
def replaceAll (old new : List Char) : List Char → List Char
  | [] => if old.isEmpty then new else []
  | c :: cs =>
    if old.isEmpty then new ++ c :: replaceAll old new cs
    else if old.isPrefixOf (c :: cs) then
      new ++ replaceAll old new ((c :: cs).drop (max 1 old.length))
    else c :: replaceAll old new cs
termination_by cs => cs.length
decreasing_by all_goals (simp only [List.length_drop, List.length_cons]; omega)

end Text

end TemplateStyler
