import TemplateStyler.Proofs.Block.Section
import TemplateStyler.Proofs.Text.Lines

/-!
# Where a block stands

A block is cut out of its document: its opening line stands at `start`, the lines of its content
follow, and its closing line stands at `stop`.

* `exists_of_mem_extract`: **the document as the lines before a block, its own lines between its two
  delimiter lines, and the lines behind it.**
* `getElem?_lines_of_mem_extract`: the line of the document at a row of the block.
* `firstLine_add_length_lt`: the rows of a block are sizes where the document has one.
-/

namespace TemplateStyler.Block

theorem exists_of_mem_blocksFrom {ss : List Section} (front : List Text) {rest : List Text}
    {b : Block} (h : b ∈ blocksFrom front.length ss) :
    ∃ before opening closing behind,
      front ++ (ss.flatMap Section.lines ++ rest) =
        before ++ opening :: (b.lines ++ closing :: behind) ∧
      before.length = b.start ∧ b.stop = b.firstLine + b.lines.length := by
  induction ss generalizing front with
  | nil => exact absurd h List.not_mem_nil
  | cons s ss ih =>
    rcases List.mem_cons.1 h with rfl | h
    · refine ⟨front ++ s.before, s.opening, s.closing, ss.flatMap Section.lines ++ rest, ?_,
        List.length_append, rfl⟩
      rw [List.flatMap_cons, Section.lines]
      simp only [Section.block, List.append_assoc, List.cons_append, List.nil_append]
    · rw [← List.length_append] at h
      obtain ⟨before, opening, closing, behind, heq, hplace⟩ := ih _ h
      refine ⟨before, opening, closing, behind, ?_, hplace⟩
      rw [← heq, List.flatMap_cons, List.append_assoc, List.append_assoc]

/-- **A document around one of its blocks.** -/
theorem exists_of_mem_extract {document : Text} {b : Block} (h : b ∈ extract document) :
    ∃ before opening closing behind,
      Text.lines document = before ++ opening :: (b.lines ++ closing :: behind) ∧
      before.length = b.start ∧ b.stop = b.firstLine + b.lines.length := by
  obtain ⟨ss, rest, hsections⟩ := exists_sectioned (Text.lines document)
  rw [extract, hsections.extractFrom_eq] at h
  rw [hsections.eq]
  exact exists_of_mem_blocksFrom [] h

/-- A row of a block is the line of the document that stands so far behind its first one. -/
theorem getElem?_lines_of_mem_extract {document : Text} {b : Block} (h : b ∈ extract document)
    {row : Nat} (hrow : row < b.lines.length) :
    (Text.lines document)[b.firstLine + row]? = b.lines[row]? := by
  obtain ⟨before, opening, closing, behind, hlines, hstart, -⟩ := exists_of_mem_extract h
  have hindex : b.firstLine + row = before.length + (row + 1) := by
    rw [firstLine, hstart]
    omega
  rw [hlines, hindex, List.getElem?_append_right (Nat.le_add_right _ _), Nat.add_sub_cancel_left,
    List.getElem?_cons_succ, List.getElem?_append_left hrow]

/-- All rows of a block lie below the size of its document. -/
theorem firstLine_add_length_lt {document : Text} {b : Block} (h : b ∈ extract document) :
    b.firstLine + b.lines.length < Text.byteSize document := by
  obtain ⟨before, opening, closing, behind, hlines, hstart, -⟩ := exists_of_mem_extract h
  have hlength := congrArg List.length hlines
  simp only [List.length_append, List.length_cons] at hlength
  have hle := Text.length_lines_le document
  rw [firstLine]
  omega

end TemplateStyler.Block
