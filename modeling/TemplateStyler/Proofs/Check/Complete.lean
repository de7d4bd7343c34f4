import Mathlib.Data.Prod.Lex
import TemplateStyler.Proofs.Check.Report

/-!
# What a report is made of

A report holds the problems of all blocks and nothing else: of each block the directive lines that
are no directives, and what the checker tells of it if its answer is of use. A tool that fails on
one block takes nothing from the others. The order is that of the places, and problems at one place
stand in the order of the blocks and lines that they come from.

* `IsStableSort`: a list in the order of keys, with items of one key in the order that they had.
  `Diagnostic.isStableSort_inOrder`: reports are sorted in this way.
* `Check.rejected`: the problems of directive lines that cannot be read.
* `Check.exists_report_of_answers`: **a report holds the problems of all blocks, and an error for
  each block with an answer of no use.**
-/

namespace TemplateStyler

open Text

/-! ### The order of a report -/

/-- The items of a list in the order of their keys, where items with one key stand in the order that
they had. -/
structure IsStableSort {α κ : Type} [LinearOrder κ] (key : α → κ) (xs sorted : List α) : Prop where
  perm : sorted.Perm xs
  ordered : sorted.Pairwise fun a b => key a ≤ key b
  stable : ∀ k, sorted.filter (fun a => key a = k) = xs.filter fun a => key a = k

/-- The place of a problem: its line, and its column among the places on that line. -/
def Diagnostic.place (d : Diagnostic) : Nat ×ₗ Nat := toLex (d.startLine, d.startColumn)

theorem Diagnostic.startsBy_iff {a b : Diagnostic} : startsBy a b = true ↔ a.place ≤ b.place := by
  rw [place, place, Prod.Lex.toLex_le_toLex]
  simp [startsBy]

/-- **Problems are sorted by their places**, those at one place as they were. -/
theorem Diagnostic.isStableSort_inOrder (ds : List Diagnostic) :
    IsStableSort place ds (inOrder ds) := by
  have htrans : ∀ a b c, startsBy a b = true → startsBy b c = true → startsBy a c = true := by
    simp only [startsBy_iff]
    exact fun _ _ _ => le_trans
  have htotal : ∀ a b, (startsBy a b || startsBy b a) = true := by
    simp only [Bool.or_eq_true, startsBy_iff]
    exact fun a b => le_total a.place b.place
  have hperm : (inOrder ds).Perm ds := List.mergeSort_perm _ _
  refine ⟨hperm, (List.pairwise_mergeSort htrans htotal ds).imp startsBy_iff.1, fun k => ?_⟩
  have htied : (ds.filter fun d => d.place = k).Pairwise fun a b => startsBy a b = true := by
    refine List.pairwise_of_forall_mem_list fun a ha b hb => startsBy_iff.2 (le_of_eq ?_)
    rw [of_decide_eq_true (List.mem_filter.1 ha).2, of_decide_eq_true (List.mem_filter.1 hb).2]
  -- Sorting keeps what is in order already, and the filter of what it keeps is all of it.
  have hkept := (List.sublist_mergeSort htrans htotal htied List.filter_sublist).filter
    fun d => d.place = k
  simp only [List.filter_filter, Bool.and_self] at hkept
  exact (hkept.eq_of_length (hperm.filter _).length_eq.symm).symm

/-! ### The problems of a block -/

namespace Check

/-- The problems of the directive lines of a block that cannot be read, from the first line on. -/
def rejected (b : Block) : List Diagnostic :=
  (b.lines.zipIdx b.firstLine).filterMap fun p =>
    match Directive.isDirectiveLine (content p.1), Directive.parse (content p.1) with
    | true, .error defect =>
      some (Diagnostic.onLine p.2 defect.start defect.stop defect.message.toList)
    | _, _ => none

/-- The problems that the answer of the checker to a block tells of, none if it is of no use. -/
def reported (b : Block) (answer : Except ToolError Output) : List Diagnostic :=
  ((usable? answer).getD []).map (·.onDocument b.start)

theorem malformedFrom_eq_rejected (b : Block) : malformedFrom b.firstLine b.lines = rejected b := by
  rw [malformedFrom, rejected]
  congr 1
  funext p
  rw [malformed?, Directive.rewriteForChecker]
  cases Directive.isDirectiveLine (content p.1) with
  | false => rfl
  | true => cases Directive.parse (content p.1) <;> rfl

theorem exists_of_mem_messages {answer : Except ToolError Output} {m : Message}
    (h : m ∈ messages answer) : ∃ ms, usable? answer = some ms ∧ m ∈ ms := by
  rw [messages_eq] at h
  cases hanswer : usable? answer with
  | none =>
    rw [hanswer] at h
    exact absurd h List.not_mem_nil
  | some ms =>
    rw [hanswer] at h
    exact ⟨ms, rfl, h⟩

theorem problems_eq (b : Block) (answer : Except ToolError Output) :
    problems b answer = rejected b ++ reported b answer := by
  rw [problems, malformedFrom_eq_rejected, messages_eq, reported]

/-- **A report holds the problems of all blocks**, by their places: of each block the directive
lines that cannot be read, and then what the checker tells of it. An answer of no use gives nothing
but one error that tells the block. -/
theorem exists_report_of_answers (checker : Tool) {document : Text}
    (hfit : byteSize document < Size.bound)
    (hrows : ∀ i b, (Block.extract document)[i]? = some b →
      ∀ ms, usable? (checker i (source b)) = some ms → ∀ m ∈ ms, m.Fits b.start) :
    ∃ report, Check.document checker document = .ok report ∧
      IsStableSort Diagnostic.place
        ((Block.extract document).zipIdx.flatMap fun p =>
          rejected p.1 ++ reported p.1 (checker p.2 (source p.1)))
        report.diagnostics ∧
      report.events.map (fun e => (e.severity, e.block?)) =
        (Block.extract document).zipIdx.flatMap fun p =>
          if (usable? (checker p.2 (source p.1))).isNone then [(.error, some p.1.start)]
          else [] := by
  obtain ⟨events, hevents, hreport⟩ := document_eq_ok_iff_failures checker hfit
  refine ⟨_, (hreport _).2 ⟨fun i b hb m hm => ?_, rfl⟩, ?_, hevents⟩
  · obtain ⟨ms, hms, hm⟩ := exists_of_mem_messages hm
    exact hrows i b hb ms hms m hm
  · have hproblems : allProblems checker document =
        (Block.extract document).zipIdx.flatMap fun p =>
          rejected p.1 ++ reported p.1 (checker p.2 (source p.1)) := by
      simp only [allProblems, problems_eq]
    rw [← hproblems]
    exact Diagnostic.isStableSort_inOrder _

/-- A checker that cannot be run, then one that sends no report, then one that fails and reports: a
message on the second line of the block and one at the place of the malformed directive. -/
def troubled : Tool :=
  Tool.scripted (.error (.spawn "checker" "")) [.ok ⟨true, "oops".toList, []⟩,
    .ok ⟨false, "[[null,\"n\",[2,1],[2,1]],[null,\"m\",[1,6],[1,6]]]".toList, []⟩]

theorem usable?_troubled (input : Text) :
    usable? (troubled 0 input) = none ∧ usable? (troubled 1 input) = none ∧
      usable? (troubled 2 input) =
        some [⟨none, "n".toList, ⟨2, 1⟩, ⟨2, 1⟩⟩, ⟨none, "m".toList, ⟨1, 6⟩, ⟨1, 6⟩⟩] := by
  have hinput : ∀ calls, troubled calls input = troubled calls [] := fun _ => rfl
  simp only [hinput]
  decide +kernel

/-- Three blocks with a malformed directive in the first and in the last. -/
theorem exists_report_of_answers_troubled :
    ∃ (document : Text) (report : Report),
      document = "....\nlet a\n....\n....\nx\n....\n....\nlet b\ny\n....\n".toList ∧
      byteSize document < Size.bound ∧ Check.document troubled document = .ok report ∧
      report.events.map (fun e => (e.severity, e.block?)) =
        [(.error, some 0), (.error, some 3)] ∧
      report.diagnostics.length = 4 ∧
      report.diagnostics.filter (fun d => d.place = toLex (7, 5)) =
        [Diagnostic.onLine 7 5 6 "unexpected end of directive".toList,
          ⟨"m".toList, 7, 5, 7, 5, none⟩] := by
  obtain ⟨document, hdocument⟩ : ∃ document : Text,
      document = "....\nlet a\n....\n....\nx\n....\n....\nlet b\ny\n....\n".toList := ⟨_, rfl⟩
  have hextract : Block.extract document = [⟨0, 2, ["let a\n".toList]⟩, ⟨3, 5, ["x\n".toList]⟩,
      ⟨6, 9, ["let b\n".toList, "y\n".toList]⟩] := by
    rw [hdocument]
    decide
  have hfit : byteSize document < Size.bound := by
    rw [hdocument]
    decide
  obtain ⟨report, hreport, hsorted, hevents⟩ := exists_report_of_answers troubled hfit (by
    intro i b hb ms hms
    rw [hextract] at hb
    have hlt : i < 3 := (List.getElem?_eq_some_iff.1 hb).1
    obtain rfl | rfl | rfl : i = 0 ∨ i = 1 ∨ i = 2 := by omega
    · rw [(usable?_troubled _).1] at hms
      cases hms
    · rw [(usable?_troubled _).2.1] at hms
      cases hms
    · rw [(usable?_troubled _).2.2] at hms
      cases Option.some.inj hb
      cases Option.some.inj hms
      decide)
  have hrejected : rejected ⟨0, 2, ["let a\n".toList]⟩ =
        [Diagnostic.onLine 1 5 6 "unexpected end of directive".toList] ∧
      rejected ⟨3, 5, ["x\n".toList]⟩ = [] ∧
      rejected ⟨6, 9, ["let b\n".toList, "y\n".toList]⟩ =
        [Diagnostic.onLine 7 5 6 "unexpected end of directive".toList] := by
    decide +kernel
  rw [hextract] at hsorted hevents
  simp only [List.zipIdx_cons, List.zipIdx_nil, List.flatMap_cons, List.flatMap_nil, Nat.zero_add,
    Nat.reduceAdd, reported, usable?_troubled, hrejected] at hsorted hevents
  refine ⟨document, report, hdocument, hfit, hreport, hevents, hsorted.perm.length_eq, ?_⟩
  rw [hsorted.stable]
  decide +kernel

end Check

end TemplateStyler
