import TemplateStyler.Format
import TemplateStyler.Proofs.Block.Normalized
import TemplateStyler.Proofs.Directive.Restore

/-!
# Formatters that fail

A formatter fails on a block where it does not run, ends badly, or answers with a text that the
hidden directives cannot be put back into (`Fails`); then, and only then, the block has no new
content (`content_block_eq_none_iff`) and its old one is written back.

* `lines_document_iff`: **where the formatter fails on every block, the lines of the document stay
  but for the dots of its delimiter lines, unless a block starts with an empty line or its opening
  line does not end with a mere newline.**
-/

namespace TemplateStyler.Format

open Text

/-- Reformatting a content fails: the formatter does not run, or ends badly, or answers with a text
that has not as many sentinel lines as the content has directive lines. -/
def Fails (formatter : Tool) (sentinel : Text) (calls : Nat) (content : Text) : Prop :=
  match formatter calls (Queue.substitute { sentinel } content).1 with
  | .error _ => True
  | .ok output =>
    output.success = false ∨
      Queue.countSentinels sentinel (lines output.stdout) ≠ Queue.countDirectives (lines content)

variable {formatter : Tool} {sentinel : Text}

theorem content_block_eq_none_iff {calls : Nat} {content : Text} :
    (block formatter sentinel calls content).content = none ↔
      Fails formatter sentinel calls content := by
  have hwaiting := Queue.length_waiting_substitute { sentinel } content
  rw [List.length_nil, Nat.zero_add] at hwaiting
  simp only [block, Fails]
  cases formatter calls (Queue.substitute { sentinel } content).1 with
  | error => exact iff_of_true rfl trivial
  | ok output =>
    by_cases hsuccess : output.success = true
    · simp only [if_pos hsuccess]
      rw [Queue.restore_eq_none_iff, hwaiting]
      exact (or_iff_right (by simp [hsuccess])).symm
    · simp only [if_neg hsuccess]
      exact iff_of_true trivial (Or.inl (Bool.eq_false_iff.2 hsuccess))

/-- Blocks on which the formatter fails keep their contents. -/
theorem contents_of_fails {bs : List Block} {calls : Nat}
    (h : ∀ i b, bs[i]? = some b → Fails formatter sentinel (calls + i) b.text) :
    ((bs.zip (blocksFrom formatter sentinel calls bs)).map fun p => p.2.content.getD p.1.text) =
      bs.map Block.text := by
  induction bs generalizing calls with
  | nil => rfl
  | cons b bs ih =>
    have hfirst := content_block_eq_none_iff.2 (h 0 b rfl)
    have hrest : ∀ i b', bs[i]? = some b' → Fails formatter sentinel (calls + 1 + i) b'.text := by
      intro i b' hb'
      rw [Nat.add_assoc, Nat.add_comm 1 i]
      exact h (i + 1) b' hb'
    rw [Nat.add_zero] at hfirst
    rw [blocksFrom, List.zip_cons_cons, List.map_cons, List.map_cons, ih hrest, hfirst,
      Option.getD_none]

/-- **A formatter that fails on every block leaves the lines of the document**, up to the dots of
the delimiter lines, if and only if no block starts with an empty line and every opening line ends
with a mere newline. -/
theorem lines_document_iff {options : Options} {text : Text}
    (h : ∀ i b, (Block.extract text)[i]? = some b → Fails formatter options.sentinel i b.text) :
    lines (document formatter options text).text = Block.normalized options.dots text ↔
      ∀ b ∈ Block.extract text, b.text.head? ≠ some '\n' ∧
        ending ((lines text).getD b.start []) = ['\n'] := by
  rw [← Block.lines_rewriteAll_own_iff, document]
  simp only
  rw [contents_of_fails fun i b hb => by rw [Nat.zero_add]; exact h i b hb]

/-- A formatter that does not run on one block and loses the directive of another one. -/
theorem lines_document_iff_two_failures :
    ∃ (formatter : Tool) (options : Options) (text : Text),
      formatter = Tool.scripted (.error (.spawn "formatter" "not found"))
        [.ok ⟨true, "x = 1\n".toList, []⟩] ∧
      options = { dots := 6 } ∧
      text = "a\n....\nx\r\n....\r\n....\n let a in 1..2\n....\n....\n".toList ∧
      (∀ i b, (Block.extract text)[i]? = some b → Fails formatter options.sentinel i b.text) ∧
      (∀ b ∈ Block.extract text, b.text.head? ≠ some '\n' ∧
        ending ((lines text).getD b.start []) = ['\n']) ∧
      lines (document formatter options text).text = ["a\n".toList, "......\n".toList,
        "x\r\n".toList, "......\r\n".toList, "......\n".toList, " let a in 1..2\n".toList,
        "......\n".toList, "....\n".toList] := by
  obtain ⟨text, htext⟩ : ∃ text : Text,
      text = "a\n....\nx\r\n....\r\n....\n let a in 1..2\n....\n....\n".toList := ⟨_, rfl⟩
  have hextract : Block.extract text =
      [⟨1, 3, ["x\r\n".toList]⟩, ⟨4, 6, [" let a in 1..2\n".toList]⟩] := by
    rw [htext]
    decide
  have hfails : ∀ i b, (Block.extract text)[i]? = some b →
      Fails (Tool.scripted (.error (.spawn "formatter" "not found"))
        [.ok ⟨true, "x = 1\n".toList, []⟩]) (Options.sentinel { dots := 6 }) i b.text := by
    intro i b hb
    rw [hextract] at hb
    match i with
    | 0 => trivial
    | 1 =>
      cases Option.some.inj hb
      exact Or.inr (by decide)
    | i + 2 => exact absurd hb (by simp)
  have hplain : ∀ b ∈ Block.extract text, b.text.head? ≠ some '\n' ∧
      ending ((lines text).getD b.start []) = ['\n'] := by
    rw [htext]
    decide
  refine ⟨_, _, text, rfl, rfl, htext, hfails, hplain, ?_⟩
  rw [(lines_document_iff hfails).2 hplain, htext]
  decide

/-- **Lines are lost or changed although the formatter fails.** The block of the first document
starts with an empty line, and the opening line of the second one has a carriage return. -/
theorem lines_document_differ :
    ∃ formatter : Tool,
      ∀ text ∈ ["....\n\nx\n....\n".toList, "....\r\nx\r\n....\r\n".toList],
        (∀ i b, (Block.extract text)[i]? = some b →
          Fails formatter (Options.sentinel {}) i b.text) ∧
        lines (document formatter { dots := 4 } text).text ≠ Block.normalized 4 text :=
  ⟨fun _ _ => .error (.spawn "formatter" "not found"), fun text htext =>
    ⟨fun _ _ _ => trivial, by revert text; decide⟩⟩

end TemplateStyler.Format
