import Mathlib.Data.List.DropRight
import TemplateStyler.Text.Lines

/-!
# Ends of a text

Characters are cut off at the ends of a text as long as they pass a test. What is left starts, or
ends, with one that fails it.

* `dropEndWhile_eq_rdropWhile`: the end is cut off as by `List.rdropWhile`. The part that is cut off
  passes the test (`exists_dropEndWhile`), and nothing is cut off before a character that fails it
  (`dropEndWhile_append`).
* `trim_append`: **white space around a text does not matter to `trim`**.
-/

namespace TemplateStyler.Text

/-! ### Classes of characters -/

theorem isSpace_of_isLineEnd {c : Char} (h : isLineEnd c = true) : isSpace c = true := by
  rw [isLineEnd, Bool.or_eq_true, beq_iff_eq, beq_iff_eq] at h
  rcases h with rfl | rfl <;> decide

theorem isSpace_of_isBlank {c : Char} (h : isBlank c = true) : isSpace c = true := by
  rw [isBlank, Bool.or_eq_true, beq_iff_eq, beq_iff_eq] at h
  rcases h with rfl | rfl <;> decide

theorem not_isDigit_of_isAlpha {c : Char} (h : c.isAlpha = true) : c.isDigit = false := by
  have hletter : 57 < c.toNat := by
    rcases Bool.or_eq_true_iff.1 h with h | h
    · exact Nat.lt_of_lt_of_le (by decide) (of_decide_eq_true h).1
    · exact Nat.lt_of_lt_of_le (by decide) (of_decide_eq_true (Bool.and_eq_true_iff.1 h).1)
  refine Bool.eq_false_iff.2 fun hdigit => ?_
  exact absurd (of_decide_eq_true (Bool.and_eq_true_iff.1 hdigit).2) (Nat.not_le_of_lt hletter)

/-! ### Characters that are cut off -/

theorem dropWhile_eq_self {p : Char → Bool} {a : List Char} (h : a.head?.any p = false) :
    a.dropWhile p = a := by
  cases a with
  | nil => rfl
  | cons c a => exact List.dropWhile_cons_of_neg (by simpa using h)

/-- What is left of a text starts with a character that fails the test. -/
theorem head?_dropWhile (p : Char → Bool) (a : List Char) :
    (a.dropWhile p).head?.any p = false := by
  have h := List.head?_dropWhile_not p a
  cases hhead : (a.dropWhile p).head? with
  | none => rfl
  | some c => simpa [hhead] using h

theorem dropEndWhile_eq_rdropWhile (p : Char → Bool) (a : List Char) :
    dropEndWhile p a = a.rdropWhile p := rfl

theorem dropEndWhile_append_of_all {p : Char → Bool} (a : List Char) {b : List Char}
    (h : ∀ c ∈ b, p c = true) : dropEndWhile p (a ++ b) = dropEndWhile p a := by
  rw [dropEndWhile, dropEndWhile, List.reverse_append,
    List.dropWhile_append_of_pos fun c hc => h c (List.mem_reverse.1 hc)]

theorem dropEndWhile_eq_self {p : Char → Bool} {a : List Char}
    (h : a.getLast?.any p = false) : dropEndWhile p a = a := by
  refine List.rdropWhile_eq_self_iff.2 fun hne => ?_
  rw [List.getLast?_eq_some_getLast hne] at h
  simpa using h

/-- The part that is left of a text ends with a character that fails the test. -/
theorem getLast?_dropEndWhile (p : Char → Bool) (a : List Char) :
    (dropEndWhile p a).getLast?.any p = false := by
  rw [dropEndWhile_eq_rdropWhile]
  by_cases hnil : a.rdropWhile p = []
  · rw [hnil]
    rfl
  · rw [List.getLast?_eq_some_getLast hnil]
    simpa using List.rdropWhile_last_not p a hnil

/-- What it leaves out passes the test. -/
theorem exists_dropEndWhile (p : Char → Bool) (a : List Char) :
    ∃ b, a = dropEndWhile p a ++ b ∧ ∀ c ∈ b, p c = true :=
  ⟨a.rtakeWhile p, List.rdropWhile_append_rtakeWhile.symm, fun _ => List.mem_rtakeWhile_imp⟩

/-- Nothing is left out before a character that fails the test. -/
theorem dropEndWhile_append {p : Char → Bool} {a : List Char} (h : a.getLast?.any p = false)
    (b : List Char) : dropEndWhile p (a ++ b) = a ++ dropEndWhile p b := by
  obtain ⟨c, hb, hc⟩ := exists_dropEndWhile p b
  have hlast : (a ++ dropEndWhile p b).getLast?.any p = false := by
    have hb := getLast?_dropEndWhile p b
    rw [List.getLast?_append]
    cases hd : (dropEndWhile p b).getLast? with
    | none => exact h
    | some d => rwa [hd] at hb
  calc dropEndWhile p (a ++ b) = dropEndWhile p (a ++ dropEndWhile p b ++ c) := by
        rw [List.append_assoc, ← hb]
    _ = dropEndWhile p (a ++ dropEndWhile p b) := dropEndWhile_append_of_all _ hc
    _ = a ++ dropEndWhile p b := dropEndWhile_eq_self hlast

/-- The part that is left of a text starts as the text does. -/
theorem head?_dropEndWhile (p : Char → Bool) {q : Char → Bool} {a : List Char}
    (h : a.head?.any q = false) : (dropEndWhile p a).head?.any q = false := by
  obtain ⟨b, hb, -⟩ := exists_dropEndWhile p a
  rw [hb, List.head?_append] at h
  cases hhead : (dropEndWhile p a).head? with
  | none => rfl
  | some c => simpa [hhead] using h

/-! ### White space around a text -/

/-- **White space around a text does not matter** once it is trimmed. -/
theorem trim_append {a b c : List Char} (ha : ∀ x ∈ a, isSpace x = true)
    (hc : ∀ x ∈ c, isSpace x = true) : trim (a ++ b ++ c) = trim b := by
  have hfront : (a ++ b).dropWhile isSpace = b.dropWhile isSpace :=
    List.dropWhile_append_of_pos ha
  have hback : c.dropWhile isSpace = [] := List.dropWhile_eq_nil_iff.2 hc
  rw [trim, trimStart, trimEnd, List.dropWhile_append, hfront, hback]
  split
  · next hnil => rw [trim, trimStart, trimEnd, List.isEmpty_iff.1 hnil]
  · rw [dropEndWhile_append_of_all _ hc]
    rfl

theorem trim_trimEnd (a : List Char) : trim (trimEnd a) = trim a := by
  obtain ⟨b, hb, hspace⟩ := exists_dropEndWhile isSpace a
  calc trim (trimEnd a) = trim ([] ++ trimEnd a ++ b) := (trim_append (by simp) hspace).symm
    _ = trim a := by rw [List.nil_append, trimEnd, ← hb]

/-- A text that neither starts nor ends with white space stays. -/
theorem trim_eq_self {a : List Char} (h : ∀ c ∈ a, isSpace c = false) : trim a = a := by
  have hfront : trimStart a = a := by
    cases a with
    | nil => rfl
    | cons c a => exact List.dropWhile_cons_of_neg (by simp [h c])
  rw [trim, hfront]
  refine dropEndWhile_eq_self ?_
  cases hlast : a.getLast? with
  | none => rfl
  | some c => exact h c (List.mem_of_getLast? hlast)

end TemplateStyler.Text
