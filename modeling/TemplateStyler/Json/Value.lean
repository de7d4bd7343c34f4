/-!
# Values of JSON

A value as a JSON text writes it. A number keeps its text, because what it means depends on who
reads it, and a string may name halves of surrogate pairs that stand for no character.

* `Json.text?` is the text of a string in which every piece is a character.
-/

namespace TemplateStyler

namespace Json

/-- A piece of a string: a character, or a half of a surrogate pair on its own. -/
inductive Piece where
  | char (c : Char)
  | half (code : Nat)
  deriving DecidableEq, Repr, Inhabited

/-- The character that a piece is. -/
def Piece.char? : Piece → Option Char
  | .char c => some c
  | .half _ => none

end Json

/-- A JSON value. -/
inductive Json where
  | null
  | bool (b : Bool)
  | number (digits : List Char)
  | string (pieces : List Json.Piece)
  | array (items : List Json)
  | object (members : List (List Json.Piece × Json))
  deriving Repr, Inhabited

namespace Json

/-- The text of pieces that are all characters. -/
def text? (pieces : List Piece) : Option (List Char) := pieces.mapM Piece.char?

/-- The string of a text. -/
def ofText (text : List Char) : Json := .string (text.map .char)

/-- The string of a text. -/
def ofString (text : String) : Json := ofText text.toList

/-- The number that a natural number is. -/
def ofNat (n : Nat) : Json := .number (toString n).toList

/-- An object with members in the given order. -/
def ofMembers (members : List (String × Json)) : Json :=
  .object (members.map fun m => (m.1.toList.map .char, m.2))

end Json

end TemplateStyler
