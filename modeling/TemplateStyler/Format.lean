import TemplateStyler.Block.Basic
import TemplateStyler.Directive.Queue
import TemplateStyler.Tool

/-!
# Formatting

The script blocks of a document are given to a formatter, one after the other, with their directives
hidden. A block on which anything fails stays as it is.

* `Format.block` gives the new content of one block, where there is one.
* `Format.document` gives the document with all blocks reformatted.
-/

namespace TemplateStyler.Format

/-- How blocks are reformatted. -/
structure Options where
  /-- The identifier that stands for a directive. -/
  sentinel : Text := Queue.usualSentinel.toList
  /-- The number of dots of delimiter lines. -/
  dots : Nat := Block.usualDots
  deriving DecidableEq, Repr, Inhabited

/-- What reformatting a block gives. -/
structure Outcome where
  /-- The new content, where nothing failed. -/
  content : Option Text
  /-- The text given to the formatter. -/
  input : Text
  events : List Event
  deriving DecidableEq, Repr, Inhabited

/-- What reformatting a content gives, with the number of calls of the formatter before. -/
def block (formatter : Tool) (sentinel : Text) (calls : Nat) (content : Text) : Outcome :=
  let (input, queue) := Queue.substitute { sentinel } content
  match formatter calls input with
  | .ok output =>
    if output.success then
      let (restored, _, events) := queue.restore output.stdout
      ⟨restored, input, events⟩
    else ⟨none, input, [.formatterRejected (Text.trim output.stderr)]⟩
  | .error _ => ⟨none, input, [.formatterNotRun]⟩

/-- What reformatting blocks gives, one after the other. -/
def blocksFrom (formatter : Tool) (sentinel : Text) (calls : Nat) : List Block → List Outcome
  | [] => []
  | b :: bs =>
    block formatter sentinel calls b.text :: blocksFrom formatter sentinel (calls + 1) bs

/-- The result of reformatting a document. -/
structure Report where
  text : Text
  /-- The texts given to the formatter, in order. -/
  inputs : List Text
  events : List Event
  deriving DecidableEq, Repr, Inhabited

/-- The document with all blocks reformatted. -/
def document (formatter : Tool) (options : Options) (text : Text) : Report :=
  let blocks := Block.extract text
  let outcomes := blocksFrom formatter options.sentinel 0 blocks
  let contents := (blocks.zip outcomes).map fun p => p.2.content.getD p.1.text
  { text := Block.rewriteAll text options.dots contents
    inputs := outcomes.map Outcome.input
    events := outcomes.flatMap Outcome.events }

end TemplateStyler.Format
