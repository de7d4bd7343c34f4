import TemplateStyler.Style.Basic

/-!
# States

The state between two lexemes holds the style of the one before, the mode that is active, and the
mode that was active before the last change of mode. A string remembers by the latter what to return
to when it closes: strings do not nest, so one remembered mode is enough.
-/

namespace TemplateStyler

/-- What is known between two lexemes. -/
structure State where
  /-- The style of the lexeme before. -/
  style : Style := .plain
  /-- The active mode. -/
  mode : Mode := .markup
  /-- The mode before the last change of mode. -/
  previous : Mode := .markup
  deriving DecidableEq, Repr, Inhabited

namespace State

/-- The state at the start of a template. -/
def initial : State := {}

end State

/-- The style of a lexeme and the mode after it. -/
structure Transition where
  style : Style
  mode : Mode
  deriving DecidableEq, Repr, Inhabited

end TemplateStyler
