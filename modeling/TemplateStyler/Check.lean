import TemplateStyler.Block.Basic
import TemplateStyler.Diagnostic.Message
import TemplateStyler.Directive.Parse
import TemplateStyler.Event
import TemplateStyler.Tool

/-!
# Checking

The script blocks of a document are given to a checker, one after the other. The checker sees each
directive as an assignment, line for line, so that its rows are those of the block. Malformed
directives are reported without it.

* `Check.document` collects the problems of all blocks by their place. What went wrong with the tool
  is told in events; the problems found before are kept.
-/

namespace TemplateStyler.Check

/-- The result of a check. -/
structure Report where
  diagnostics : List Diagnostic := []
  /-- The texts given to the checker, in order. -/
  inputs : List Text := []
  events : List Event := []
  deriving DecidableEq, Repr, Inhabited

/-- The text of a block as the checker sees it: each line rewritten and ended by a newline. -/
def source (b : Block) : Text :=
  b.lines.flatMap fun line => (Directive.rewriteForChecker (Text.content line)).1 ++ ['\n']

/-- The malformed directives among the lines of a block from a row on. Rows count from the first
line of the block, which has an index in the document. -/
def defectsFrom (firstLine row : Nat) : List Text → Except Fault (List Diagnostic)
  | [] => .ok []
  | line :: rest => do
    let found ← match (Directive.rewriteForChecker (Text.content line)).2 with
      | some d => do
        let onRow := Diagnostic.onLine row d.start d.stop d.message.toList
        pure [← onRow.shift firstLine]
      | none => pure []
    return found ++ (← defectsFrom firstLine (row + 1) rest)

/-- The malformed directives of a block. -/
def defects (b : Block) : Except Fault (List Diagnostic) := defectsFrom b.firstLine 0 b.lines

/-- The problems that an answer of the checker tells of, and what went wrong with it. -/
def findings (b : Block) : Except ToolError Output → Except Fault (List Diagnostic × List Event)
  | .error _ => .ok ([], [.checkerNotRun b.start])
  | .ok output =>
    let stderr := Text.trim output.stderr
    if !output.success && output.stdout.all Text.isSpace then
      .ok ([], [.checkerFailed b.start stderr])
    else match Message.readAll? output.stdout with
      | none => .ok ([], [.checkerUnreadable b.start stderr])
      | some messages => do
        return (← messages.mapM (·.toDiagnostic b.start), [])

/-- The report on one block, given the number of calls of the checker before. -/
def block (checker : Tool) (calls : Nat) (b : Block) : Except Fault Report := do
  let input := source b
  let own ← defects b
  let (found, events) ← findings b (checker calls input)
  return ⟨own ++ found, [input], events⟩

/-- The reports on blocks, one after the other, put together. -/
def blocksFrom (checker : Tool) (calls : Nat) : List Block → Except Fault Report
  | [] => .ok {}
  | b :: bs => do
    let first ← block checker calls b
    let rest ← blocksFrom checker (calls + 1) bs
    return ⟨first.diagnostics ++ rest.diagnostics, first.inputs ++ rest.inputs,
      first.events ++ rest.events⟩

/-- The report on a document. -/
def document (checker : Tool) (text : Text) : Except Fault Report := do
  let report ← blocksFrom checker 0 (Block.extract text)
  return { report with diagnostics := Diagnostic.inOrder report.diagnostics }

end TemplateStyler.Check
