import TemplateStyler.Check
import TemplateStyler.Proofs.Block.Rewrite
import TemplateStyler.Proofs.Text.Returns

/-!
# Line ends do not matter to a check

A check looks at a document through the contents of its lines alone: a line is a delimiter by its
content, a directive is read from the content of its line, and the checker is given contents with
newlines of their own. So documents with the same contents, line by line, have the same check, and a
text and its twin with carriage returns are such documents.

* `Block.withContents`: a block with the contents of its lines in place of the lines;
  `map_withContents_extract` reads these blocks off the contents of a document.
* `block_withContents`: the report on a block depends on these contents only.
* `document_congr`: documents with the same contents have the same report.
* `document_withReturns`: **the twin with carriage returns is checked as the document is.**
-/

namespace TemplateStyler

open Text

namespace Block

/-- The block with its lines without their ends. -/
def withContents (b : Block) : Block := { b with lines := b.lines.map content }

theorem isDelimiter_content (l : Text) : isDelimiter (content l) = isDelimiter l :=
  isDelimiter_congr (trim_content l)

/-- The blocks among contents are those among the lines, without the line ends. -/
theorem extractFrom_map_content (index : Nat) (opened : Option (Nat × List Text))
    (ls : List Text) :
    extractFrom index (opened.map fun p => (p.1, p.2.map content)) (ls.map content) =
      (extractFrom index opened ls).map withContents := by
  induction ls generalizing index opened with
  | nil => cases opened <;> rfl
  | cons l ls ih =>
    cases opened with
    | none =>
      rw [Option.map_none, List.map_cons, extractFrom, extractFrom, isDelimiter_content, ← ih]
      cases isDelimiter l <;> rfl
    | some p =>
      obtain ⟨start, inside⟩ := p
      rw [Option.map_some, List.map_cons, extractFrom, extractFrom, isDelimiter_content]
      cases isDelimiter l with
      | true => rw [if_pos rfl, if_pos rfl, List.map_cons, ← ih]; rfl
      | false =>
        rw [if_neg Bool.false_ne_true, if_neg Bool.false_ne_true, ← ih, Option.map_some,
          List.map_append]
        rfl

/-- **The contents of the blocks** come from the contents of the lines of the document. -/
theorem map_withContents_extract (document : Text) :
    (extract document).map withContents = extractFrom 0 none ((Text.lines document).map content) :=
  (extractFrom_map_content 0 none (Text.lines document)).symm

end Block

namespace Check

variable {checker : Tool} {document document' : Text}

theorem content_content (l : Text) : content (content l) = content l :=
  dropEndWhile_eq_self (getLast?_content l)

theorem source_withContents (b : Block) : source b.withContents = source b := by
  rw [source, source, Block.withContents, List.flatMap_map]
  simp only [content_content]

theorem defectsFrom_map_content (firstLine row : Nat) (ls : List Text) :
    defectsFrom firstLine row (ls.map content) = defectsFrom firstLine row ls := by
  induction ls generalizing row with
  | nil => rfl
  | cons l ls ih => rw [List.map_cons, defectsFrom, defectsFrom, content_content, ih]

theorem findings_withContents (b : Block) (answer : Except ToolError Output) :
    findings b.withContents answer = findings b answer := by
  cases answer <;> rfl

/-- A check sees of a block where it starts and the contents of its lines. -/
theorem block_withContents (checker : Tool) (calls : Nat) (b : Block) :
    block checker calls b.withContents = block checker calls b := by
  have hdefects : defects b.withContents = defects b := defectsFrom_map_content _ _ _
  rw [block, block, source_withContents, hdefects]
  simp only [findings_withContents]

theorem blocksFrom_withContents (checker : Tool) (calls : Nat) (bs : List Block) :
    blocksFrom checker calls (bs.map Block.withContents) = blocksFrom checker calls bs := by
  induction bs generalizing calls with
  | nil => rfl
  | cons b bs ih => rw [List.map_cons, blocksFrom, blocksFrom, block_withContents, ih]

/-- What a check makes of a document is decided by the contents of its lines. -/
theorem document_congr (h : (lines document).map content = (lines document').map content) :
    (Block.extract document).map source = (Block.extract document').map source ∧
      Check.document checker document = Check.document checker document' := by
  have hblocks : (Block.extract document).map Block.withContents =
      (Block.extract document').map Block.withContents := by
    rw [Block.map_withContents_extract, Block.map_withContents_extract, h]
  constructor
  · have hsources := congrArg (List.map source) hblocks
    simpa only [List.map_map, Function.comp_def, source_withContents] using hsources
  · rw [Check.document, Check.document, ← blocksFrom_withContents, hblocks,
      blocksFrom_withContents]

/-- **Checking does not depend on line ends.** The document with a carriage return before each
newline gives the checker the same texts, in the same order, and has the same report: the same
problems, the same events and the same faults. The checker answers by the number of calls before
and the text that it is given. -/
theorem document_withReturns (checker : Tool) (document : Text) :
    (Block.extract (withReturns document)).map source = (Block.extract document).map source ∧
      Check.document checker (withReturns document) = Check.document checker document :=
  document_congr (map_content_lines_withReturns document)

end Check

end TemplateStyler
