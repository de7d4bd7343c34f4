import TemplateStyler.Directive.Queue

/-!
# Sentinel lines and waiting directives

Putting directives back pairs the sentinel lines of a text with the directives that wait, one by
one from the front. What goes wrong depends on their numbers alone.

* `length_leftOver`, `missing_eq`: the directives that no line was left for, and whether a line was
  left without one.
* `restore_eq_none_iff`: **a text is refused unless it has just as many sentinel lines as
  directives wait.**
* `restored`: the lines with each sentinel line given way to the directive of its number.
* `restore_eq`: **what comes back**: the restored lines, or one warning that tells the numbers.
-/

namespace TemplateStyler.Queue

open Text Directive

/-- The number of sentinel lines among lines. -/
def countSentinels (sentinel : Text) (ls : List Text) : Nat :=
  ls.countP fun l => isSentinelLine sentinel (content l)

/-- The number of directive lines among lines. -/
def countDirectives (ls : List Text) : Nat := ls.countP fun l => isDirectiveLine (content l)

theorem countSentinels_cons (sentinel l : Text) (ls : List Text) :
    countSentinels sentinel (l :: ls) =
      countSentinels sentinel ls + if isSentinelLine sentinel (content l) then 1 else 0 := by
  rw [countSentinels, List.countP_cons, ← countSentinels]

/-- A sentinel line takes the first directive that waits. -/
theorem restoreLines_of_sentinel {sentinel l : Text}
    (h : isSentinelLine sentinel (content l) = true) (d : Text) (ds ls : List Text) :
    restoreLines sentinel (d :: ds) (l :: ls) =
      { restoreLines sentinel ds ls with
        text := indentation (content l) ++ Directive.normalize d ++ ending l
          ++ (restoreLines sentinel ds ls).text } := by
  rw [restoreLines, if_pos h]

/-- Any other line stays. -/
theorem restoreLines_of_not_sentinel {sentinel l : Text}
    (h : isSentinelLine sentinel (content l) = false) (waiting ls : List Text) :
    restoreLines sentinel waiting (l :: ls) =
      { restoreLines sentinel waiting ls with
        text := l ++ (restoreLines sentinel waiting ls).text } := by
  cases waiting <;> rw [restoreLines, h, if_neg Bool.false_ne_true]

theorem length_leftOver (sentinel : Text) (waiting ls : List Text) :
    (restoreLines sentinel waiting ls).leftOver.length =
      waiting.length - countSentinels sentinel ls := by
  fun_induction restoreLines sentinel waiting ls with
  | case1 waiting => rfl
  | case2 l ls hl d ds r ih =>
    rw [countSentinels_cons, if_pos hl, List.length_cons, Nat.add_sub_add_right]
    exact ih
  | case3 l ls hl r ih =>
    rw [countSentinels_cons, if_pos hl, List.length_nil, Nat.zero_sub]
    rwa [List.length_nil, Nat.zero_sub] at ih
  | case4 waiting l ls hl r ih =>
    rw [countSentinels_cons, if_neg hl, Nat.add_zero]
    exact ih

theorem missing_eq (sentinel : Text) (waiting ls : List Text) :
    (restoreLines sentinel waiting ls).missing =
      decide (waiting.length < countSentinels sentinel ls) := by
  fun_induction restoreLines sentinel waiting ls with
  | case1 waiting => simp [countSentinels]
  | case2 l ls hl d ds r ih =>
    rw [countSentinels_cons, if_pos hl, List.length_cons]
    exact ih.trans (decide_eq_decide.2 Nat.add_lt_add_iff_right.symm)
  | case3 l ls hl r ih =>
    rw [countSentinels_cons, if_pos hl]
    exact (decide_eq_true (Nat.succ_pos _)).symm
  | case4 waiting l ls hl r ih =>
    rw [countSentinels_cons, if_neg hl, Nat.add_zero]
    exact ih

/-- What went wrong depends on two numbers alone. -/
theorem mismatch_iff {sentinel : Text} {waiting ls : List Text} :
    ((restoreLines sentinel waiting ls).missing ||
      !(restoreLines sentinel waiting ls).leftOver.isEmpty) = true ↔
        countSentinels sentinel ls ≠ waiting.length := by
  rw [Bool.or_eq_true, missing_eq, decide_eq_true_eq, Bool.not_eq_true',
    List.isEmpty_eq_false_iff, ← List.length_pos_iff, length_leftOver]
  omega

/-- **A text is refused unless it has just as many sentinel lines as directives wait.** -/
theorem restore_eq_none_iff {q : Queue} {text : Text} :
    (q.restore text).1 = none ↔ countSentinels q.sentinel (lines text) ≠ q.waiting.length := by
  rw [← mismatch_iff, restore]
  split
  · next h => exact iff_of_true rfl h
  · next h => exact iff_of_false (Option.some_ne_none _) h

/-- The lines in which each sentinel line gives way to the directive of its number among the
sentinel lines, behind the indentation and before the ending that the line has. -/
def restored (sentinel : Text) (directives ls : List Text) : List Text :=
  ls.mapIdx fun i l =>
    if isSentinelLine sentinel (content l) then
      indentation (content l) ++
        normalize (directives.getD (countSentinels sentinel (ls.take i)) []) ++ ending l
    else l

theorem restored_of_sentinel {sentinel l : Text}
    (h : isSentinelLine sentinel (content l) = true) (d : Text) (ds ls : List Text) :
    restored sentinel (d :: ds) (l :: ls) =
      (indentation (content l) ++ normalize d ++ ending l) :: restored sentinel ds ls := by
  simp only [restored, List.mapIdx_cons, h, if_true, List.take_zero, List.take_succ_cons,
    countSentinels_cons, List.getD_cons_succ]
  rfl

theorem restored_of_not_sentinel {sentinel l : Text}
    (h : isSentinelLine sentinel (content l) = false) (ds ls : List Text) :
    restored sentinel ds (l :: ls) = l :: restored sentinel ds ls := by
  simp only [restored, List.mapIdx_cons, h, Bool.false_eq_true, if_false, List.take_succ_cons,
    countSentinels_cons, Nat.add_zero]

/-- Where a directive waits for each sentinel line, the directives go to them in order. -/
theorem text_restoreLines {sentinel : Text} {waiting ls : List Text}
    (h : countSentinels sentinel ls ≤ waiting.length) :
    (restoreLines sentinel waiting ls).text = (restored sentinel waiting ls).flatten := by
  fun_induction restoreLines sentinel waiting ls with
  | case1 waiting => rfl
  | case2 l ls hl d ds r ih =>
    rw [countSentinels_cons, if_pos hl, List.length_cons, Nat.add_le_add_iff_right] at h
    rw [restored_of_sentinel hl, List.flatten_cons, ← ih h]
  | case3 l ls hl r ih =>
    rw [countSentinels_cons, if_pos hl] at h
    cases h
  | case4 waiting l ls hl r ih =>
    rw [countSentinels_cons, if_neg hl, Nat.add_zero] at h
    rw [restored_of_not_sentinel (Bool.eq_false_iff.2 hl), List.flatten_cons, ← ih h]

/-- **What comes back** is the text with the directives in place of the sentinel lines, one by one,
if there are as many of both. Otherwise it is nothing but one warning that tells the numbers. No
directive waits any more in either case. -/
theorem restore_eq (q : Queue) (text : Text) :
    q.restore text =
      (if countSentinels q.sentinel (lines text) = q.waiting.length then
        (some (restored q.sentinel q.waiting (lines text)).flatten, { q with waiting := [] }, [])
      else
        (none, { q with waiting := [] },
          [.sentinelMismatch (q.waiting.length - countSentinels q.sentinel (lines text))
            (decide (q.waiting.length < countSentinels q.sentinel (lines text)))])) ∧
      ∀ e ∈ (q.restore text).2.2, e.severity = .warning := by
  by_cases h : countSentinels q.sentinel (lines text) = q.waiting.length
  · have hrestore : q.restore text = (some (restored q.sentinel q.waiting (lines text)).flatten,
        { q with waiting := [] }, []) := by
      rw [← text_restoreLines (Nat.le_of_eq h)]
      exact if_neg fun hwrong => mismatch_iff.1 hwrong h
    rw [if_pos h, hrestore]
    exact ⟨rfl, List.forall_mem_nil _⟩
  · have hrestore : q.restore text = (none, { q with waiting := [] },
        [.sentinelMismatch (q.waiting.length - countSentinels q.sentinel (lines text))
          (decide (q.waiting.length < countSentinels q.sentinel (lines text)))]) := by
      rw [← length_leftOver, ← missing_eq]
      exact if_pos (mismatch_iff.2 h)
    rw [if_neg h, hrestore]
    exact ⟨rfl, List.forall_mem_singleton.2 rfl⟩

/-- The indentation and the endings of the sentinel lines stay. -/
example : (restore ⟨"S".toList, ["let  a in 1..2".toList, "let b in 3..4".toList]⟩
    "\tS\r\nx\n S ".toList).1 = some "\tlet a in 1..2\r\nx\n let b in 3..4".toList := by
  decide +kernel

/-- Every directive line puts one directive at the end of the queue. -/
theorem length_waiting_substitute (q : Queue) (text : Text) :
    (q.substitute text).2.waiting.length = q.waiting.length + countDirectives (lines text) := by
  simp only [substitute, List.length_append, List.length_map]
  rw [← List.countP_eq_length_filter, List.countP_map]
  rfl

end TemplateStyler.Queue
