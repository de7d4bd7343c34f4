import TemplateStyler.Proofs.Fault
import TemplateStyler.Proofs.Lexeme.LineStart
import TemplateStyler.Proofs.State.Causes
import TemplateStyler.Proofs.Styler.Course

/-!
# Marks of blocks

The state tells the marks of blocks by their characters and does not look where they stand: dots
open and close scripts, equals signs the header, angle brackets the core block, and in the core
block dashes name files. It is the scanner that makes such lexemes at line starts only.

* `Entry.MarksBlock`: the lexemes that act on blocks. `exists_of_marksBlock` shows that they start
  with two characters which are scanned one by one inside a line.
* `style_stateAfter_ne`: at a line start no language comment is open, so that dots are seen there.
* `marksBlock_at_lineStart`: **marks of blocks act at line starts only, and dots act at each.**
-/

namespace TemplateStyler

open Text Lexeme Shape

/-- A lexeme that acts on the blocks of a template: dots that open or close a script, a lexeme by
which the header or the core block is entered or left, or the mark of a file or a directory. -/
def Entry.MarksBlock (e : Entry) : Prop :=
  (e.lexeme.text.all (· == '.') = true ∧ e.after.mode ≠ e.before.mode) ∨
    ¬ (e.before.mode = .header ↔ e.after.mode = .header) ∨
    ¬ (e.before.mode = .core ↔ e.after.mode = .core) ∨ e.after.style ∈ Style.inclusions

instance (e : Entry) : Decidable e.MarksBlock := by unfold Entry.MarksBlock; infer_instance

namespace Registry

variable {r : Registry}

/-- **A mark of a block starts with two characters that are scanned one by one inside a line.** -/
theorem exists_of_marksBlock {s : State} {l : Lexeme} (hs : s.Consistent) (hne : l.text ≠ [])
    (h : Entry.MarksBlock ⟨l, s, r.next l.text s⟩) :
    ∃ c d rest, l.text = c :: d :: rest ∧ c ∈ solitary ∧ d.isDigit = false := by
  have hrun : ∀ c ∈ solitary, isRunOf c 3 l.text = true →
      ∃ c d rest, l.text = c :: d :: rest ∧ c ∈ solitary ∧ d.isDigit = false := by
    intro c hc hrun
    obtain ⟨rest, hrest⟩ := exists_of_isRunOf (by decide) hrun
    have hdigit : c.isDigit = false := by
      rcases cases_of_solitary hc with rfl | rfl | rfl | rfl | rfl | rfl <;> rfl
    exact ⟨c, c, rest, hrest, hc, hdigit⟩
  rcases h with ⟨hdots, hmode⟩ | hheader | hcore | hstyle
  · simp only at hdots hmode
    match hl : l.text, hne, hdots with
    | [c], _, hdots =>
      obtain rfl : c = '.' := by simpa using hdots
      exact absurd (hl ▸ r.mode_next_dot hs) hmode
    | c :: d :: rest, _, hdots =>
      simp only [List.all_cons, Bool.and_eq_true, beq_iff_eq] at hdots
      obtain ⟨rfl, rfl, -⟩ := hdots
      exact ⟨'.', '.', rest, rfl, by decide, rfl⟩
  · exact hrun '=' (by decide) (r.isRunOf_of_header_change hs hheader)
  · rcases r.isRunOf_of_core_change hs hcore with h | h
    · exact hrun '<' (by decide) h
    · exact hrun '>' (by decide) h
  · rcases r.isPrefixOf_of_inclusion hs hstyle with h | h
    · obtain ⟨rest, hrest⟩ := List.isPrefixOf_iff_prefix.1 h
      exact ⟨'-', '-', rest, hrest.symm, by decide, rfl⟩
    · obtain ⟨rest, hrest⟩ := List.isPrefixOf_iff_prefix.1 h
      exact ⟨'!', '-', '-' :: rest, hrest.symm, by decide, rfl⟩

/-- **At a line start no language comment is open.** -/
theorem style_stateAfter_ne (hr : r.OnOneLine) {a : Text} (ha : WholeLines a) :
    (r.stateAfter a).style ≠ .languageComment := by
  refine after_scan_of_wholeLines (P := fun s => s.style ≠ .languageComment) hr ?_ ?_ ha
    (fun _ => rfl) State.consistent_initial fun _ => Style.noConfusion
  · intro s lexeme hs hnewline
    by_cases hstyle : s.style = .languageComment
    · rw [next, transition, if_pos hstyle, if_pos hnewline]
      exact Style.noConfusion
    · refine r.style_next_ne_languageComment hs hstyle ?_ ?_ <;>
        rcases isNewline_iff.1 hnewline with rfl | rfl <;> decide
  · intro s lexeme hs hstyle hhead
    refine r.style_next_ne_languageComment hs hstyle ?_ ?_ <;> rw [hhead] <;> decide

/-- Four dots or more close a script, and open one in the markup and in expressions. -/
theorem mode_next_dots {s : State} (hstyle : s.style ≠ .languageComment)
    (hmode : s.mode = .markup ∨ s.mode = .script ∨ s.mode = .expression) {n : Nat} (hn : 4 ≤ n) :
    (r.next (List.replicate n '.') s).mode = if s.mode = .script then .markup else .script := by
  have hrun : isRunOf '.' 4 (List.replicate n '.') = true := isRunOf_iff.2 ⟨n, hn, rfl⟩
  rw [next, r.transition_open hstyle hmode, openTransition, if_pos hrun]

/-- **Marks of blocks act at line starts only, and dots act at each of them.** A lexeme of a text by
which dots open or close a script, by which the header or the core block is entered or left, or that
is the mark of a file or a directory, stands at a line start. At each line start, four dots or more
are one lexeme, and if the state there is one of the markup, of a script or of an expression, they
close the script or open one. -/
theorem marksBlock_at_lineStart (hr : r.OnOneLine) (text : Text) :
    ∃ ls t, r.grammar.lexemes text 0 (byteSize text) = .ok ls ∧ r.trace .initial ls = .ok t ∧
      (∀ e ∈ t, e.MarksBlock → IsLineStart text e.lexeme.start) ∧
      ∀ a n b, text = a ++ (List.replicate n '.' ++ b) → WholeLines a → 4 ≤ n →
        b.head? ≠ some '.' →
        ∃ e ∈ t, e.lexeme = ⟨byteSize a, List.replicate n '.'⟩ ∧
          r.walk .initial (ls.filter fun l => l.stop ≤ byteSize a) = .ok e.before ∧
          (e.before.mode = .markup ∨ e.before.mode = .script ∨ e.before.mode = .expression →
            e.after.mode = if e.before.mode = .script then .markup else .script) := by
  have hlexemes := r.grammar.lexemes_wholeLines wholeLines_nil text
  rw [List.nil_append, byteSize_nil] at hlexemes
  refine ⟨_, r.course text, hlexemes, r.trace_eq_entries State.consistent_initial _, ?_, ?_⟩
  · intro e he hmarks
    have hmem := r.lexeme_mem_of_mem_entries he
    obtain ⟨hs, hnext⟩ := r.step_of_mem_entries State.consistent_initial he
    obtain ⟨c, d, rest, htext, hc, hd⟩ :=
      r.exists_of_marksBlock hs (Grammar.ne_nil_of_mem_scan hmem) (hnext ▸ hmarks)
    exact (Grammar.taken_of_mem_scanText hmem).isLineStart htext hc hd
  · rintro a n b rfl ha hn hb
    have hmem : (⟨⟨byteSize a, List.replicate n '.'⟩, r.stateAfter a,
        r.next (List.replicate n '.') (r.stateAfter a)⟩ : Entry) ∈
          r.course (a ++ (List.replicate n '.' ++ b)) := by
      rw [course_append hr ha, r.grammar.scan_dots hn hb]
      exact List.mem_append_right _ List.mem_cons_self
    exact ⟨_, hmem, rfl, walk_of_mem_course hmem, fun hmode =>
      r.mode_next_dots (style_stateAfter_ne hr ha) hmode hn⟩

/-- Dots that close a script, before a letter, and equals signs that open the header, where they are
also the start of a key. -/
theorem marksBlock_at_lineStart_equals :
    OnOneLine { headerKeys := ["==".toList] } ∧
    ∃ (text : Text) (t : Trace) (dots equals : Entry), text = "....\n....x\n===\n".toList ∧
      dots ∈ t ∧ dots.lexeme = ⟨5, "....".toList⟩ ∧ dots.before.mode = .script ∧
      dots.after.mode = .markup ∧
      equals ∈ t ∧ equals.lexeme = ⟨11, "===".toList⟩ ∧ equals.MarksBlock ∧
      IsLineStart text 11 := by
  have hr : OnOneLine { headerKeys := ["==".toList] } := ⟨by decide, by decide⟩
  obtain ⟨text, htext⟩ : ∃ text : Text, text = "....\n....x\n===\n".toList := ⟨_, rfl⟩
  obtain ⟨ls, t, hls, ht, hmarks, hdots⟩ := marksBlock_at_lineStart hr text
  have hrun : (do
      let ls ← (grammar { headerKeys := ["==".toList] }).lexemes text 0 (byteSize text)
      let t ← Registry.trace { headerKeys := ["==".toList] } .initial ls
      let s ← Registry.walk { headerKeys := ["==".toList] } .initial
        (ls.filter fun l => l.stop ≤ 5)
      return decide (s.mode = .script ∧
        ∃ e ∈ t, e.lexeme = ⟨11, "===".toList⟩ ∧ e.MarksBlock) : Except Fault Bool) =
      .ok true := by
    rw [htext]
    decide +kernel
  rw [hls] at hrun
  simp only [Fault.ok_bind, ht, Fault.bind_eq_ok_iff] at hrun
  obtain ⟨s, hs, heq⟩ := hrun
  obtain ⟨hscript, equals, hmem, hlexeme, hequals⟩ := of_decide_eq_true (Except.ok.inj heq)
  obtain ⟨dots, hmem', hlexeme', hwalk, hmode⟩ :=
    hdots "....\n".toList 4 "x\n===\n".toList htext (by decide) (by decide) (by decide)
  obtain rfl : s = dots.before := Except.ok.inj (hs.symm.trans hwalk)
  refine ⟨hr, text, t, dots, equals, htext, hmem', hlexeme', hscript, ?_, hmem, hlexeme, hequals,
    ?_⟩
  · rw [hmode (Or.inr (Or.inl hscript)), if_pos hscript]
  · have hline := hmarks equals hmem hequals
    rwa [hlexeme] at hline

end Registry

end TemplateStyler
