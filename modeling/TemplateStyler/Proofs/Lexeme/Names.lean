import TemplateStyler.Proofs.Text.Position
import TemplateStyler.Lexeme.Grammar
import Mathlib.Data.List.Infix

/-!
# Names, the longest first

The names of a rule are tried from the longest to the shortest. Two names of one length cannot both
stand at a position, so that it does not matter in which order such names are tried.

* `mem_longestFirst`, `descending_longestFirst`: the names that are tried, and their order.
* `named_eq_some_iff`: what is read is read behind the longest name that allows it.
* `named_congr`: **only the names that stand at a position matter there.**
-/

namespace TemplateStyler

open Text Lexeme

/-- All names of a registry. -/
def Registry.names (r : Registry) : List Text :=
  r.argumentTags ++ r.plainTags ++ r.builtins ++ r.headerKeys

/-! ### The names and their order -/

theorem mem_eraseRepsBy_loop (names : List Text) (a : Text) (acc : List Text) (x : Text) :
    x ∈ List.eraseRepsBy.loop (· == ·) a names acc ↔ x = a ∨ x ∈ names ∨ x ∈ acc := by
  induction names generalizing a acc with
  | nil => simp [List.eraseRepsBy.loop, or_comm]
  | cons b names ih =>
    rw [List.eraseRepsBy.loop]
    split
    · next hab =>
      rw [ih, List.mem_cons, eq_of_beq hab]
      tauto
    · rw [ih, List.mem_cons, List.mem_cons]
      tauto

@[simp] theorem mem_longestFirst {names : List Text} {name : Text} :
    name ∈ longestFirst names ↔ name ∈ names := by
  have hsorted : name ∈ names.mergeSort textLE ↔ name ∈ names := List.mem_mergeSort
  rw [longestFirst, List.mem_mergeSort, sortedNames, List.eraseReps, ← hsorted]
  cases names.mergeSort textLE with
  | nil => rfl
  | cons a rest => simp [List.eraseRepsBy, mem_eraseRepsBy_loop]

/-- Names with at most as many bytes come behind. -/
def Descending (names : List Text) : Prop := names.Pairwise fun a b => byteSize b ≤ byteSize a

theorem descending_longestFirst (names : List Text) : Descending (longestFirst names) := by
  let atLeastAsLong : Text → Text → Bool := fun a b => decide (byteSize b ≤ byteSize a)
  have htrans : ∀ a b c, atLeastAsLong a b = true → atLeastAsLong b c = true →
      atLeastAsLong a c = true := by
    intro a b c hab hbc
    simp only [atLeastAsLong, decide_eq_true_eq] at hab hbc ⊢
    omega
  have htotal : ∀ a b, (atLeastAsLong a b || atLeastAsLong b a) = true := by
    intro a b
    simp only [atLeastAsLong, Bool.or_eq_true, decide_eq_true_eq]
    omega
  have hsorted := List.pairwise_mergeSort htrans htotal (sortedNames names)
  simp only [atLeastAsLong, decide_eq_true_eq] at hsorted
  exact hsorted

/-! ### Names at a position -/

/-- A name that is read stands at the position. -/
theorem prefix_of_both_literal {name cs : Text} {reader : Text → Option Nat}
    (h : (both (literal name) reader cs).isSome = true) : name <+: cs := by
  obtain ⟨n, hn⟩ := Option.isSome_iff_exists.1 h
  obtain ⟨m, hm, -⟩ := Option.bind_eq_some_iff.1 hn
  rw [literal] at hm
  split at hm
  · next hprefix => exact List.isPrefixOf_iff_prefix.1 hprefix
  · cases hm

/-- Two names with the same number of bytes do not stand at one position. -/
theorem eq_of_prefix {a b cs : Text} (ha : a <+: cs) (hb : b <+: cs)
    (hsize : byteSize a = byteSize b) : a = b := by
  obtain ⟨x, hx⟩ := ha
  obtain ⟨y, hy⟩ := hb
  obtain ⟨c, rfl, -⟩ := prefix_of_byteSize_le (hx.trans hy.symm) (Nat.le_of_eq hsize)
  rw [byteSize_append] at hsize
  rw [byteSize_eq_zero.1 (show byteSize c = 0 by omega), List.append_nil]

/-- **What is read behind a name is read behind the longest name that allows it.** -/
theorem named_eq_some_iff {names : List Text} (hnames : Descending names)
    {reader : Text → Option Nat} {cs : Text} {n : Nat} :
    named names reader cs = some n ↔
      ∃ name ∈ names, both (literal name) reader cs = some n ∧
        ∀ name' ∈ names, (both (literal name') reader cs).isSome = true →
          byteSize name' ≤ byteSize name := by
  have hfirst : ∀ m, named names reader cs = some m →
      ∃ name ∈ names, both (literal name) reader cs = some m ∧
        ∀ name' ∈ names, (both (literal name') reader cs).isSome = true →
          byteSize name' ≤ byteSize name := by
    intro m hm
    obtain ⟨before, name, behind, rfl, hread, hnone⟩ := List.findSome?_eq_some_iff.1 hm
    refine ⟨name, by simp, hread, fun name' hname' hsome => ?_⟩
    rcases List.mem_append.1 hname' with hbefore | hbehind
    · rw [hnone name' hbefore] at hsome
      cases hsome
    · rcases List.mem_cons.1 hbehind with rfl | hbehind
      · exact Nat.le_refl _
      · exact (List.pairwise_cons.1 (List.pairwise_append.1 hnames).2.1).1 name' hbehind
  refine ⟨hfirst n, ?_⟩
  rintro ⟨name, hname, hread, hlongest⟩
  have hsome : (named names reader cs).isSome = true :=
    List.findSome?_isSome_iff.2 ⟨name, hname, by rw [hread]; rfl⟩
  obtain ⟨m, hm⟩ := Option.isSome_iff_exists.1 hsome
  obtain ⟨name', hname', hread', hlongest'⟩ := hfirst m hm
  -- each of the two names is at least as long as the other one
  have hsize : byteSize name' = byteSize name :=
    Nat.le_antisymm (hlongest name' hname' (by rw [hread']; rfl))
      (hlongest' name hname (by rw [hread]; rfl))
  have heq : name' = name :=
    eq_of_prefix (prefix_of_both_literal (Option.isSome_of_eq_some hread'))
      (prefix_of_both_literal (Option.isSome_of_eq_some hread)) hsize
  rw [hm, ← hread, ← hread', heq]

/-- **Only the names that stand at a position matter there.** -/
theorem named_congr {names names' : List Text} (hnames : Descending names)
    (hnames' : Descending names') {cs : Text}
    (h : ∀ name, name <+: cs → (name ∈ names ↔ name ∈ names')) (reader : Text → Option Nat) :
    named names reader cs = named names' reader cs := by
  have hread : ∀ name, (both (literal name) reader cs).isSome = true →
      (name ∈ names ↔ name ∈ names') := fun name hname => h name (prefix_of_both_literal hname)
  refine Option.ext fun n => ?_
  rw [named_eq_some_iff hnames, named_eq_some_iff hnames']
  constructor
  · rintro ⟨name, hname, hn, hlongest⟩
    exact ⟨name, (hread name (by rw [hn]; rfl)).1 hname, hn, fun name' hname' hsome =>
      hlongest name' ((hread name' hsome).2 hname') hsome⟩
  · rintro ⟨name, hname, hn, hlongest⟩
    exact ⟨name, (hread name (by rw [hn]; rfl)).2 hname, hn, fun name' hname' hsome =>
      hlongest name' ((hread name' hsome).1 hname') hsome⟩

end TemplateStyler
