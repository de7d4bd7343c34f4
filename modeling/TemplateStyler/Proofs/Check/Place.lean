import TemplateStyler.Proofs.Check.Report
import TemplateStyler.Proofs.Directive.Checked

/-!
# Where problems land

The checker counts the rows of the text that it is given, and malformed directives are found on rows
of a block. Both are rows of the same lines: what the checker is given has one line for each line of
the block, and so a row tells a line of the document.

* `lines_source`: the text that the checker is given, line by line.
* `mem_malformedFrom`: a malformed directive is reported on its own line.
* `document_of_block`: **problems land on the line that they are about.**
-/

namespace TemplateStyler.Check

open Text

/-! ### The text that is checked -/

/-- **The checker is given one line for each line of a block**, each with a mere newline. -/
theorem lines_source {document : Text} {b : Block} (h : b ∈ Block.extract document) :
    Text.lines (source b) =
      b.lines.map fun line => (Directive.rewriteForChecker (content line)).1 ++ ['\n'] := by
  obtain ⟨before, opening, closing, behind, hlines, -⟩ := Block.exists_of_mem_extract h
  have hlined := lined_lines document
  rw [hlines, List.append_cons] at hlined
  obtain ⟨hcontent, -⟩ := lined_append.1 (lined_append.1 hlined).2.1
  rw [source, List.flatMap_def]
  refine lines_flatten (hcontent.map fun line hline => ⟨⟨by simp, ?_⟩, fun _ => wholeLines_snoc _⟩)
  rw [List.dropLast_concat]
  exact Directive.newline_not_mem_rewriteForChecker
    (isLine_of_mem hcontent hline).newline_not_mem_content

/-! ### Malformed directives -/

theorem mem_malformedFrom {index row : Nat} {ls : List Text} {line : Text} {defect : Defect}
    (hline : ls[row]? = some line)
    (hdefect : (Directive.rewriteForChecker (content line)).2 = some defect) :
    Diagnostic.onLine (index + row) defect.start defect.stop defect.message.toList ∈
      malformedFrom index ls := by
  refine List.mem_filterMap.2 ⟨(line, index + row), ?_, ?_⟩
  · exact List.mk_add_mem_zipIdx_iff_getElem?.2 hline
  · rw [malformed?, hdefect, Option.map_some]

/-! ### The report -/

theorem problems_subset_allProblems {checker : Tool} {document : Text} {i : Nat} {b : Block}
    (hb : (Block.extract document)[i]? = some b) :
    problems b (checker i (source b)) ⊆ allProblems checker document := fun _ hd =>
  List.mem_flatMap.2 ⟨(b, i), List.mk_mem_zipIdx_iff_getElem?.2 hb, hd⟩

/-- The report on a document holds the problems of each of its blocks. -/
theorem exists_document_of_block {checker : Tool} {document : Text}
    (hfit : byteSize document < Size.bound) {i : Nat} {b : Block}
    (hb : (Block.extract document)[i]? = some b)
    (hrows : ∀ i b, (Block.extract document)[i]? = some b →
      ∀ m ∈ messages (checker i (source b)), m.Fits b.start) :
    ∃ report, Check.document checker document = .ok report ∧
      report.inputs[i]? = some (source b) ∧
      problems b (checker i (source b)) ⊆ report.diagnostics := by
  obtain ⟨events, hreport⟩ := document_eq_ok_iff checker hfit
  refine ⟨_, (hreport _).2 ⟨hrows, rfl⟩, by rw [List.getElem?_map, hb, Option.map_some], ?_⟩
  intro d hd
  exact List.mem_mergeSort.2 (problems_subset_allProblems hb hd)

/-- **Problems land on the line that they are about.** The checker is given the lines of a block,
one for one; whatever it sends, the report holds the malformed directives of the block and the
problems that the messages tell of. The row `r` of the block is the line `b.start + r` of the
document, and what is reported on this row is reported there. A message is a problem of the document
where its last row is a size. -/
theorem document_of_block {document : Text} (hfit : byteSize document < Size.bound) {i : Nat}
    {b : Block} (hb : (Block.extract document)[i]? = some b) :
    Text.lines (source b) =
      b.lines.map (fun line => (Directive.rewriteForChecker (content line)).1 ++ ['\n']) ∧
    ∃ own, defects b = .ok own ∧
      (∀ checker : Tool,
        (∀ i b, (Block.extract document)[i]? = some b →
          ∀ m ∈ messages (checker i (source b)), m.Fits b.start) →
        ∃ report, Check.document checker document = .ok report ∧
          report.inputs[i]? = some (source b) ∧ own ⊆ report.diagnostics ∧
          ∀ m ∈ messages (checker i (source b)),
            ∃ d ∈ report.diagnostics, m.toDiagnostic b.start = .ok d) ∧
      ∀ r, 1 ≤ r → r ≤ b.lines.length → ∃ line,
        b.lines[r - 1]? = some line ∧ (Text.lines document)[b.start + r]? = some line ∧
        (∀ defect, (Directive.rewriteForChecker (content line)).2 = some defect →
          Diagnostic.onLine (b.start + r) defect.start defect.stop defect.message.toList ∈ own) ∧
        ∀ m : Message, m.start.row = r → ∀ d, m.toDiagnostic b.start = .ok d ↔
          b.start + m.stop.row < Size.bound ∧
            d = ⟨m.message, b.start + r, m.start.column - 1, b.start + m.stop.row,
              m.stop.column - 1, m.code⟩ := by
  have hmem := List.mem_of_getElem? hb
  have hrows := Nat.lt_trans (Block.firstLine_add_length_lt hmem) hfit
  refine ⟨lines_source hmem, _, defects_eq (Nat.le_of_lt hrows), fun checker hfits => ?_,
    fun r hpos hle => ?_⟩
  · obtain ⟨report, hreport, hinput, hproblems⟩ := exists_document_of_block hfit hb hfits
    refine ⟨report, hreport, hinput, fun d hd => hproblems (List.mem_append_left _ hd),
      fun m hm => ⟨m.onDocument b.start, hproblems ?_, ?_⟩⟩
    · exact List.mem_append_right _ (List.mem_map_of_mem hm)
    · exact Message.toDiagnostic_eq_ok_iff.2 ⟨hfits i b hb m hm, rfl⟩
  · have hrow : r - 1 < b.lines.length := by omega
    have hindex : b.start + r = b.firstLine + (r - 1) := by
      rw [Block.firstLine]
      omega
    have hline := List.getElem?_eq_getElem hrow
    refine ⟨_, hline, ?_, fun defect hdefect => ?_, fun m hm d => ?_⟩
    · rw [hindex, Block.getElem?_lines_of_mem_extract hmem hrow, hline]
    · rw [hindex]
      exact mem_malformedFrom hline hdefect
    · rw [Message.toDiagnostic_eq_ok_iff, Message.Fits, Message.onDocument, hm]
      refine and_congr_left fun _ => and_iff_right ?_
      rw [Block.firstLine] at hrows
      omega

/-- A block behind another one, with line ends of two characters, a malformed directive on its
second line, and a message on its first one. -/
theorem document_of_block_second :
    ∃ (document : Text) (b : Block) (report : Report),
      document = "....\n....\n....\r\nx\r\n let a\r\n....\r\n".toList ∧
      byteSize document < Size.bound ∧ (Block.extract document)[1]? = some b ∧
      Text.lines (source b) = ["x\n".toList, " pass\n".toList] ∧
      (Text.lines document)[4]? = some " let a\r\n".toList ∧
      Check.document (onRow 1) document = .ok report ∧
      Diagnostic.onLine 4 6 7 "unexpected end of directive".toList ∈ report.diagnostics ∧
      ⟨"m".toList, 3, 0, 3, 0, none⟩ ∈ report.diagnostics := by
  obtain ⟨document, hdocument⟩ : ∃ document : Text,
      document = "....\n....\n....\r\nx\r\n let a\r\n....\r\n".toList := ⟨_, rfl⟩
  have hextract : Block.extract document =
      [⟨0, 1, []⟩, ⟨2, 5, ["x\r\n".toList, " let a\r\n".toList]⟩] := by
    rw [hdocument]
    decide
  have hfit : byteSize document < Size.bound := by
    rw [hdocument]
    decide
  have hb : (Block.extract document)[1]? =
      some ⟨2, 5, ["x\r\n".toList, " let a\r\n".toList]⟩ := by rw [hextract]; rfl
  have hmessages : ∀ i input,
      messages (onRow 1 i input) = [⟨none, "m".toList, ⟨1, 1⟩, ⟨1, 1⟩⟩] := by
    have hfirst : messages (onRow 1 0 []) = [⟨none, "m".toList, ⟨1, 1⟩, ⟨1, 1⟩⟩] := by
      decide +kernel
    exact fun _ _ => hfirst
  have hfits : ∀ i b, (Block.extract document)[i]? = some b →
      ∀ m ∈ messages (onRow 1 i (source b)), m.Fits b.start := by
    intro i b hb m hm
    rw [hmessages, List.mem_singleton] at hm
    rw [hextract] at hb
    subst hm
    match i with
    | 0 => cases Option.some.inj hb; decide
    | 1 => cases Option.some.inj hb; decide
    | i + 2 => exact absurd hb (by simp)
  obtain ⟨hsource, own, -, hall, hrows⟩ := document_of_block hfit hb
  obtain ⟨report, hreport, -, hown, hfound⟩ := hall (onRow 1) hfits
  obtain ⟨line, hline, hplace, hmalformed, -⟩ := hrows 2 (by decide) (by decide)
  obtain ⟨_, -, -, -, hmessage⟩ := hrows 1 (by decide) (by decide)
  cases Option.some.inj hline
  refine ⟨document, _, report, hdocument, hfit, hb, ?_, hplace, hreport,
    hown (hmalformed ⟨.unfinished, 6, 7⟩ (by decide +kernel)), ?_⟩
  · rw [hsource]
    decide +kernel
  · obtain ⟨d, hd, htold⟩ := hfound ⟨none, "m".toList, ⟨1, 1⟩, ⟨1, 1⟩⟩ (by
      rw [hmessages]
      exact List.mem_singleton_self _)
    obtain ⟨-, rfl⟩ := (hmessage _ rfl d).1 htold
    exact hd

end TemplateStyler.Check
