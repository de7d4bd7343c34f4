import TemplateStyler.Style.Basic

/-!
# How a style looks

The colours and typefaces by which an editor may show each style. They are a suggestion: nothing
else depends on them.

* `Style.look` is the table.
* `Colour.packed` reads a colour as one number below `2 ^ 24`, `Colour.hex` writes it.
-/

namespace TemplateStyler

/-- A colour by its red, green and blue parts. -/
structure Colour where
  red : UInt8
  green : UInt8
  blue : UInt8
  deriving DecidableEq, Repr, Inhabited

namespace Colour

/-- The colour as one number, red in the highest byte. -/
def packed (c : Colour) : Nat := c.red.toNat * 65536 + c.green.toNat * 256 + c.blue.toNat

/-- Two lower-case hexadecimal digits. -/
def hexByte (b : UInt8) : String :=
  String.ofList [Nat.digitChar (b.toNat / 16), Nat.digitChar (b.toNat % 16)]

/-- The colour as a number sign and six hexadecimal digits. -/
def hex (c : Colour) : String := "#" ++ hexByte c.red ++ hexByte c.green ++ hexByte c.blue

def white : Colour := ⟨0xff, 0xff, 0xff⟩
def black : Colour := ⟨0x00, 0x00, 0x00⟩
def grey : Colour := ⟨0x80, 0x80, 0x80⟩
def ocean : Colour := ⟨0x00, 0x5f, 0xaf⟩
def forest : Colour := ⟨0x00, 0x87, 0x00⟩
def purple : Colour := ⟨0x87, 0x00, 0xaf⟩
def brown : Colour := ⟨0xaf, 0x5f, 0x00⟩
def parchment : Colour := ⟨0xf5, 0xf2, 0xe8⟩
def ice : Colour := ⟨0xe8, 0xf0, 0xfa⟩
def mint : Colour := ⟨0xee, 0xf7, 0xee⟩

end Colour

/-- The colours and typefaces of a style. -/
structure Look where
  foreground : Colour
  background : Colour
  bold : Bool := false
  italic : Bool := false
  /-- Whether the background runs on to the end of the line. -/
  fillsLine : Bool := false
  deriving DecidableEq, Repr, Inhabited

namespace Style

open Colour

/-- How a style looks. -/
def look : Style → Look
  | .plain => { foreground := black, background := white }
  | .tag => { foreground := ocean, background := white, bold := true }
  | .variable => { foreground := purple, background := white }
  | .inlineExpression => { foreground := purple, background := white, bold := true }
  | .comment => { foreground := grey, background := white, italic := true }
  | .macroName => { foreground := ⟨0x00, 0x87, 0x87⟩, background := white }
  | .languageComment => { foreground := ⟨0x5f, 0x87, 0x5f⟩, background := white, italic := true }
  | .scriptBody => { foreground := black, background := parchment, fillsLine := true }
  | .blockDelimiter =>
    { foreground := brown, background := parchment, bold := true, fillsLine := true }
  | .integer => { foreground := forest, background := parchment }
  | .singleQuoteString | .doubleQuoteString =>
    { foreground := ⟨0xaf, 0x00, 0x00⟩, background := parchment }
  | .tripleSingleQuoteString | .tripleDoubleQuoteString =>
    { foreground := ⟨0x87, 0x00, 0x00⟩, background := parchment, fillsLine := true }
  | .unclosedString =>
    { foreground := black, background := ⟨0xff, 0xaf, 0xaf⟩, fillsLine := true }
  | .keyword => { foreground := ⟨0x00, 0x00, 0xaf⟩, background := parchment, bold := true }
  | .builtin => { foreground := ⟨0x5f, 0x00, 0xaf⟩, background := parchment }
  | .scriptComment => { foreground := grey, background := parchment, italic := true }
  | .correctAnswer => { foreground := forest, background := white, bold := true }
  | .incorrectAnswer => { foreground := ⟨0xd7, 0x00, 0x00⟩, background := white, bold := true }
  | .neutralizedAnswer => { foreground := ⟨0xaf, 0x87, 0x00⟩, background := white, bold := true }
  | .conditionalAnswer => { foreground := ⟨0x00, 0x5f, 0x87⟩, background := white, bold := true }
  | .alternativeVersion =>
    { foreground := white, background := ⟨0x5f, 0x5f, 0x87⟩, bold := true, fillsLine := true }
  | .headerBody => { foreground := black, background := ice, fillsLine := true }
  | .headerDelimiter => { foreground := ocean, background := ice, bold := true, fillsLine := true }
  | .headerKey => { foreground := ⟨0x00, 0x5f, 0x5f⟩, background := ice, bold := true }
  | .headerComment => { foreground := grey, background := ice, italic := true, fillsLine := true }
  | .coreBody => { foreground := black, background := mint, fillsLine := true }
  | .coreDelimiter =>
    { foreground := ⟨0x00, 0x5f, 0x00⟩, background := mint, bold := true, fillsLine := true }
  | .inclusion => { foreground := ocean, background := mint, bold := true }
  | .directoryChange => { foreground := brown, background := mint, bold := true }
  | .disabledInclusion => { foreground := ⟨0x9e, 0x9e, 0x9e⟩, background := mint, italic := true }

end Style

end TemplateStyler
