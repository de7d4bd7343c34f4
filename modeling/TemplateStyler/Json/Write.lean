import TemplateStyler.Json.Value

/-!
# Writing JSON

* `Json.pretty` writes a value over several lines, each level indented by two spaces. An array or an
  object without parts stays on one line.
-/

namespace TemplateStyler.Json

/-- Four lower-case hexadecimal digits. -/
def hex4 (n : Nat) : List Char :=
  [n / 4096, n / 256, n / 16, n].map fun k => Nat.digitChar (k % 16)

/-- A piece of a string between its quotes. Quotes, backslashes and control characters are escaped,
by a letter where they have one. -/
def writePiece : Piece → List Char
  | .char '"' => ['\\', '"']
  | .char '\\' => ['\\', '\\']
  | .char '\x08' => ['\\', 'b']
  | .char '\x0c' => ['\\', 'f']
  | .char '\n' => ['\\', 'n']
  | .char '\r' => ['\\', 'r']
  | .char '\t' => ['\\', 't']
  | .char c => if c.toNat < 32 then '\\' :: 'u' :: hex4 c.toNat else [c]
  | .half code => '\\' :: 'u' :: hex4 code

/-- A string in its quotes. -/
def writeString (pieces : List Piece) : List Char := '"' :: pieces.flatMap writePiece ++ ['"']

/-- A new line at a level. -/
def newLine (level : Nat) : List Char := '\n' :: List.replicate (2 * level) ' '

mutual

/-- A value at a level. -/
def writeValue (level : Nat) : Json → List Char
  | .null => "null".toList
  | .bool true => "true".toList
  | .bool false => "false".toList
  | .number digits => digits
  | .string pieces => writeString pieces
  | .array [] => ['[', ']']
  | .array (v :: vs) =>
    '[' :: newLine (level + 1) ++ writeValue (level + 1) v ++ writeItems (level + 1) vs
      ++ newLine level ++ [']']
  | .object [] => ['{', '}']
  | .object ((key, v) :: ms) =>
    '{' :: newLine (level + 1) ++ writeString key ++ ": ".toList ++ writeValue (level + 1) v
      ++ writeMembers (level + 1) ms ++ newLine level ++ ['}']

/-- The items of an array after the first one. -/
def writeItems (level : Nat) : List Json → List Char
  | [] => []
  | v :: vs => ',' :: newLine level ++ writeValue level v ++ writeItems level vs

/-- The members of an object after the first one. -/
def writeMembers (level : Nat) : List (List Piece × Json) → List Char
  | [] => []
  | (key, v) :: ms =>
    ',' :: newLine level ++ writeString key ++ ": ".toList ++ writeValue level v
      ++ writeMembers level ms

end

/-- A value over several lines. -/
def pretty (v : Json) : List Char := writeValue 0 v

end TemplateStyler.Json
