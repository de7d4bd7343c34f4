import TemplateStyler.Text.Basic

/-!
# Tools

A tool takes a text and answers with another one. It may fail, and it may answer differently each
time that it is called, so that a tool is a function of the number of calls before and of its input.

* `Tool.scripted` and `Tool.replacing` are tools with fixed answers.
-/

namespace TemplateStyler

/-- What a tool printed, and whether it ended well. -/
structure Output where
  success : Bool
  stdout : Text
  stderr : Text := []
  deriving DecidableEq, Repr, Inhabited

/-- Why a tool gave no answer. -/
inductive ToolError where
  /-- The program could not be started. -/
  | spawn (program cause : String)
  /-- Feeding or reading the program failed. -/
  | io (program cause : String)
  deriving DecidableEq, Repr, Inhabited

/-- Why a tool gave no answer, in words. -/
def ToolError.message : ToolError → String
  | .spawn program cause => "Failed to start `" ++ program ++ "`: " ++ cause
  | .io program cause => "I/O error while running `" ++ program ++ "`: " ++ cause

/-- A tool, by the number of calls before and its input. -/
abbrev Tool := Nat → Text → Except ToolError Output

namespace Tool

/-- The tool that gives one answer after the other, and the last one again and again. -/
def scripted (first : Except ToolError Output) (rest : List (Except ToolError Output)) : Tool :=
  fun n _ => (first :: rest).getD (min n rest.length) first

/-- The tool that replaces texts in its input, one pair after the other. -/
def replacing (pairs : List (Text × Text)) : Tool :=
  fun _ input => .ok ⟨true, pairs.foldl (fun t p => Text.replaceAll p.1 p.2 t) input, []⟩

end Tool

end TemplateStyler
