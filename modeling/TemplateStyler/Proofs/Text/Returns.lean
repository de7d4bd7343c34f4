import TemplateStyler.Proofs.Text.Lines

/-!
# Newlines with carriage returns

A text without carriage returns has a twin in which each newline has one before it. Parts of the
text have their twins as parts of the twin.

* `withReturns`: the twin of a text. It is that of its parts (`withReturns_append`), and a text
  without newlines is its own (`withReturns_of_not_mem`).
* `takeWhile_withReturns`, `prefix_withReturns_iff`: what stands before the first newline is the
  same in both.
* `lines_withReturns`, `map_content_lines_withReturns`: the lines of the twin are the twins of the
  lines, with the same contents.
-/

namespace TemplateStyler.Text

/-- A character, with a carriage return before it if it is a newline. -/
def withReturn (c : Char) : Text := if c = '\n' then ['\r', '\n'] else [c]

/-- The text with a carriage return before each newline. -/
def withReturns (cs : Text) : Text := cs.flatMap withReturn

@[simp] theorem withReturns_nil : withReturns [] = [] := rfl

@[simp] theorem withReturns_newline (cs : Text) :
    withReturns ('\n' :: cs) = '\r' :: '\n' :: withReturns cs := rfl

theorem withReturns_cons {c : Char} (hc : c ≠ '\n') (cs : Text) :
    withReturns (c :: cs) = c :: withReturns cs := by
  rw [withReturns, List.flatMap_cons, withReturn, if_neg hc]
  rfl

@[simp] theorem withReturns_append (a b : Text) :
    withReturns (a ++ b) = withReturns a ++ withReturns b := List.flatMap_append

/-- A text without newlines stays as it is. -/
theorem withReturns_of_not_mem {cs : Text} (h : '\n' ∉ cs) : withReturns cs = cs := by
  induction cs with
  | nil => rfl
  | cons c cs ih =>
    rw [List.mem_cons, not_or] at h
    rw [withReturns_cons (Ne.symm h.1), ih h.2]

theorem withReturns_eq_nil {cs : Text} : withReturns cs = [] ↔ cs = [] := by
  cases cs with
  | nil => simp
  | cons c cs =>
    by_cases hc : c = '\n'
    · simp [hc]
    · simp [withReturns_cons hc]

@[simp] theorem getLast?_withReturns (cs : Text) : (withReturns cs).getLast? = cs.getLast? := by
  rcases List.eq_nil_or_concat cs with rfl | ⟨front, c, rfl⟩
  · rfl
  · rw [List.concat_eq_append, withReturns_append]
    by_cases hc : c = '\n'
    · simp [hc]
    · simp [withReturns_cons hc]

/-- The rest of the twin behind the twin of a beginning. -/
theorem drop_withReturns (n : Nat) (cs : Text) :
    (withReturns cs).drop (withReturns (cs.take n)).length = withReturns (cs.drop n) := by
  have hsplit : withReturns cs = withReturns (cs.take n) ++ withReturns (cs.drop n) := by
    rw [← withReturns_append, List.take_append_drop]
  rw [hsplit, List.drop_left]

/-- A run of characters other than line ends is the same in the twin. -/
theorem takeWhile_withReturns {p : Char → Bool} (hreturn : p '\r' = false)
    (hnewline : p '\n' = false) (cs : Text) : (withReturns cs).takeWhile p = cs.takeWhile p := by
  induction cs with
  | nil => rfl
  | cons c cs ih =>
    by_cases hc : c = '\n'
    · subst hc
      rw [withReturns_newline, List.takeWhile_cons_of_neg (by simp [hreturn]),
        List.takeWhile_cons_of_neg (by simp [hnewline])]
    · rw [withReturns_cons hc, List.takeWhile_cons, List.takeWhile_cons, ih]

/-- So is a word without line ends. -/
theorem prefix_withReturns_iff {word : Text} (hword : WithinLine word) (cs : Text) :
    word <+: withReturns cs ↔ word <+: cs := by
  induction word generalizing cs with
  | nil => simp
  | cons d word ih =>
    obtain ⟨hd, hrest⟩ := List.forall_mem_cons.1 hword
    cases cs with
    | nil => rfl
    | cons c cs =>
      by_cases hc : c = '\n'
      · subst hc
        have hreturn : d ≠ '\r' := by
          rintro rfl
          cases hd
        have hnewline : d ≠ '\n' := by
          rintro rfl
          cases hd
        rw [withReturns_newline, List.cons_prefix_cons, List.cons_prefix_cons]
        exact iff_of_false (fun h => hreturn h.1) (fun h => hnewline h.1)
      · rw [withReturns_cons hc, List.cons_prefix_cons, List.cons_prefix_cons, ih hrest]

/-! ### Lines of the twin -/

theorem withReturns_flatten (ls : List Text) :
    withReturns ls.flatten = (ls.map withReturns).flatten := by
  induction ls with
  | nil => rfl
  | cons l ls ih => rw [List.flatten_cons, withReturns_append, ih, List.map_cons, List.flatten_cons]

/-- A line has its newline at the end, so that its twin is a line too. -/
theorem isLine_withReturns {l : Text} (h : IsLine l) : IsLine (withReturns l) := by
  refine ⟨fun hnil => h.1 (withReturns_eq_nil.1 hnil), ?_⟩
  rw [← List.dropLast_concat_getLast h.1, withReturns_append, withReturns_of_not_mem h.2]
  by_cases hc : l.getLast h.1 = '\n'
  · rw [hc, withReturns_newline, withReturns_nil, List.dropLast_append_of_ne_nil (by simp)]
    simp [h.2]
  · rw [withReturns_cons hc, withReturns_nil, List.dropLast_concat]
    exact h.2

/-- **The lines of the twin are the twins of the lines.** -/
theorem lines_withReturns (cs : Text) : lines (withReturns cs) = (lines cs).map withReturns := by
  have hlined : Lined ((lines cs).map withReturns) :=
    (lined_lines cs).map fun l hl =>
      ⟨isLine_withReturns (isLine_of_mem (lined_lines cs) hl), fun hwhole => by
        rwa [WholeLines, getLast?_withReturns]⟩
  rw [← lines_flatten hlined, ← withReturns_flatten, flatten_lines]

/-- The carriage return before the newline of a line does not count as content. -/
theorem content_withReturns {l : Text} (h : IsLine l) : content (withReturns l) = content l := by
  have hends : ∀ c ∈ withReturns (ending l), isLineEnd c = true := by
    intro c hc
    obtain ⟨d, hd, hc⟩ := List.mem_flatMap.1 hc
    rw [withReturn] at hc
    split at hc
    · rcases List.mem_cons.1 hc with rfl | hc
      · rfl
      · rw [List.mem_singleton.1 hc]
        rfl
    · rw [List.mem_singleton.1 hc]
      exact isLineEnd_of_mem_ending hd
  calc content (withReturns l) = content (withReturns (content l ++ ending l)) := by
        rw [content_append_ending]
    _ = content (content l ++ withReturns (ending l)) := by
        rw [withReturns_append, withReturns_of_not_mem h.newline_not_mem_content]
    _ = content l := content_append (getLast?_content l) hends

theorem map_content_lines_withReturns (cs : Text) :
    (lines (withReturns cs)).map content = (lines cs).map content := by
  rw [lines_withReturns, List.map_map]
  exact List.map_congr_left fun l hl => content_withReturns (isLine_of_mem (lined_lines cs) hl)

end TemplateStyler.Text
