import TemplateStyler.Proofs.Text.Position

/-!
# Lines of a text

A text is the same as the list of its lines: every line but the last one ends with a newline, and no
line has one before its end.

* `Text.Lined`: the lists that are the lines of a text (`lined_lines`, `lines_flatten`).
* `lines_append`: behind whole lines the lines of the rest follow. `lines_mapLines`: where contents
  are rewritten without newlines, each line stays one line.
* `content` and `ending` part a line before its line ends (`content_append_ending`,
  `content_append`, `ending_append`).
-/

namespace TemplateStyler.Text

/-! ### A line and its ending -/

@[simp] theorem content_append_ending (line : List Char) : content line ++ ending line = line :=
  List.prefix_iff_eq_append.1 (List.rdropWhile_prefix isLineEnd line)

theorem isLineEnd_of_mem_ending {line : List Char} {c : Char} (h : c ∈ ending line) :
    isLineEnd c = true := by
  obtain ⟨b, hb, hall⟩ := exists_dropEndWhile isLineEnd line
  have hending : ending line = b :=
    List.append_cancel_left ((content_append_ending line).trans hb)
  exact hall c (hending ▸ h)

theorem trim_content (line : List Char) : trim (content line) = trim line := by
  have hspace : ∀ c ∈ ending line, isSpace c = true := fun c hc =>
    isSpace_of_isLineEnd (isLineEnd_of_mem_ending hc)
  calc trim (content line) = trim ([] ++ content line ++ ending line) :=
        (trim_append (by simp) hspace).symm
    _ = trim line := by rw [List.nil_append, content_append_ending]

/-- A line is parted before the line ends behind its last other character. -/
theorem content_append {a e : List Char} (ha : a.getLast?.any isLineEnd = false)
    (he : ∀ c ∈ e, isLineEnd c = true) : content (a ++ e) = a := by
  rw [content, dropEndWhile_append_of_all _ he, dropEndWhile_eq_self ha]

theorem ending_append {a e : List Char} (ha : a.getLast?.any isLineEnd = false)
    (he : ∀ c ∈ e, isLineEnd c = true) : ending (a ++ e) = e := by
  rw [ending, content_append ha he, List.drop_left]

theorem getLast?_content (line : List Char) : (content line).getLast?.any isLineEnd = false :=
  getLast?_dropEndWhile _ _

/-! ### Lists of lines -/

/-- A line: it is not empty, and a newline can only be its last character. -/
def IsLine (l : List Char) : Prop := l ≠ [] ∧ '\n' ∉ l.dropLast

/-- The lines of a text: all but the last one end with a newline. -/
def Lined : List (List Char) → Prop
  | [] => True
  | l :: ls => IsLine l ∧ (ls ≠ [] → WholeLines l) ∧ Lined ls

theorem IsLine.cons {c : Char} {l : List Char} (hc : c ≠ '\n') (h : IsLine l) : IsLine (c :: l) :=
  ⟨List.cons_ne_nil _ _, by rw [List.dropLast_cons_of_ne_nil h.1]; simp [Ne.symm hc, h.2]⟩

theorem lined_lines (cs : List Char) : Lined (lines cs) := by
  induction cs with
  | nil => trivial
  | cons c cs ih =>
    rw [lines]
    by_cases hc : c = '\n'
    · rw [if_pos hc]
      exact ⟨⟨by simp, by simp⟩, fun _ => rfl, ih⟩
    · rw [if_neg hc]
      cases hcs : lines cs with
      | nil => exact ⟨⟨by simp, by simp⟩, fun h => absurd rfl h, trivial⟩
      | cons l ls =>
        rw [hcs] at ih
        obtain ⟨hl, hended, hls⟩ := ih
        exact ⟨hl.cons hc, fun h => (hended h).prepend hl.1 [c], hls⟩

theorem lines_line_append {l b : List Char} (hl : IsLine l) (hended : b ≠ [] → WholeLines l) :
    lines (l ++ b) = l :: lines b := by
  induction l with
  | nil => exact absurd rfl hl.1
  | cons c l ih =>
    by_cases hnil : l = []
    · subst hnil
      by_cases hc : c = '\n'
      · rw [List.singleton_append, lines, if_pos hc, hc]
      · have hb : b = [] := by
          by_contra hb
          exact hc (by simpa [WholeLines] using hended hb)
        rw [hb]
        simp [lines, hc]
    · obtain ⟨-, hmem⟩ := hl
      rw [List.dropLast_cons_of_ne_nil hnil, List.mem_cons, not_or] at hmem
      have hrest := ih ⟨hnil, hmem.2⟩ fun hb => (hended hb).of_append (a := [c])
      rw [List.cons_append, lines, if_neg (Ne.symm hmem.1), hrest]

/-- **A text is the same as the list of its lines.** -/
theorem lines_flatten {ls : List (List Char)} (h : Lined ls) : lines ls.flatten = ls := by
  induction ls with
  | nil => rfl
  | cons l ls ih =>
    obtain ⟨hl, hended, hls⟩ := h
    rw [List.flatten_cons, lines_line_append hl, ih hls]
    rintro hne
    refine hended ?_
    rintro rfl
    exact hne rfl

theorem lined_append {x y : List (List Char)} :
    Lined (x ++ y) ↔ Lined x ∧ Lined y ∧ (y ≠ [] → ∀ l ∈ x, WholeLines l) := by
  induction x with
  | nil => simp [Lined]
  | cons l x ih =>
    rw [List.cons_append, Lined, Lined, ih]
    constructor
    · rintro ⟨hl, hended, hx, hy, hall⟩
      refine ⟨⟨hl, fun hne => hended (by simp [hne]), hx⟩, hy, fun hne l' hl' => ?_⟩
      rcases List.mem_cons.1 hl' with rfl | hl'
      · exact hended (by simp [hne])
      · exact hall hne l' hl'
    · rintro ⟨⟨hl, hended, hx⟩, hy, hall⟩
      refine ⟨hl, fun hne => ?_, hx, hy, fun hy' l' hl' => hall hy' l' (by simp [hl'])⟩
      by_cases hx' : x = []
      · exact hall (by simpa [hx'] using hne) l (by simp)
      · exact hended hx'

/-- The lines of whole lines all end with a newline. -/
theorem Lined.wholeLines {ls : List (List Char)} (h : Lined ls) (hwhole : WholeLines ls.flatten) :
    ∀ l ∈ ls, WholeLines l := by
  rcases List.eq_nil_or_concat ls with rfl | ⟨x, l, rfl⟩
  · simp
  · rw [List.concat_eq_append] at h hwhole ⊢
    obtain ⟨-, -, hall⟩ := lined_append.1 h
    rw [List.flatten_append, List.flatten_singleton] at hwhole
    intro l' hl'
    rcases List.mem_append.1 hl' with hl' | hl'
    · exact hall (by simp) l' hl'
    · rw [List.mem_singleton.1 hl']
      exact hwhole.of_append

theorem wholeLines_flatten {ls : List (List Char)} (h : ∀ l ∈ ls, WholeLines l) :
    WholeLines ls.flatten := by
  induction ls with
  | nil => exact wholeLines_nil
  | cons l ls ih => exact (h l (by simp)).append (ih fun l' hl' => h l' (by simp [hl']))

/-- **Behind whole lines the lines of the rest follow.** -/
theorem lines_append {a : List Char} (ha : WholeLines a) (b : List Char) :
    lines (a ++ b) = lines a ++ lines b := by
  have hall := (lined_lines a).wholeLines (by rwa [flatten_lines])
  have h : Lined (lines a ++ lines b) :=
    lined_append.2 ⟨lined_lines a, lined_lines b, fun _ => hall⟩
  rw [← lines_flatten h, List.flatten_append, flatten_lines, flatten_lines]

/-- A newline at the end of a text that has none ends its last line. -/
theorem lines_append_newline {a : List Char} (hne : a ≠ []) (hlast : a.getLast? ≠ some '\n') :
    ∃ x l, lines a = x ++ [l] ∧ lines (a ++ ['\n']) = x ++ [l ++ ['\n']] := by
  rcases List.eq_nil_or_concat (lines a) with hnil | ⟨x, l, hlines⟩
  · exact absurd (by rw [← flatten_lines a, hnil, List.flatten_nil]) hne
  · rw [List.concat_eq_append] at hlines
    obtain ⟨hx, ⟨⟨hl, hmem⟩, -, -⟩, hall⟩ := lined_append.1 (hlines ▸ lined_lines a)
    have ha : a = x.flatten ++ l := by
      rw [← flatten_lines a, hlines, List.flatten_append, List.flatten_singleton]
    have hnot : '\n' ∉ l := by
      rw [ha, List.getLast?_append, Option.or_of_isSome (by simpa using hl),
        List.getLast?_eq_some_getLast hl, ne_eq, Option.some.injEq] at hlast
      rw [← List.dropLast_concat_getLast hl, List.mem_append, List.mem_singleton, not_or]
      exact ⟨hmem, Ne.symm hlast⟩
    refine ⟨x, l, hlines, ?_⟩
    have hline : IsLine (l ++ ['\n']) := ⟨by simp, by rwa [List.dropLast_concat]⟩
    have hlined : Lined (x ++ [l ++ ['\n']]) :=
      lined_append.2 ⟨hx, ⟨hline, fun h => absurd rfl h, trivial⟩, fun _ => hall (by simp)⟩
    rw [← lines_flatten hlined, List.flatten_append, List.flatten_singleton, ha, List.append_assoc]

/-- A text has no more lines than bytes. -/
theorem length_lines_le (cs : List Char) : (lines cs).length ≤ byteSize cs := by
  induction cs with
  | nil => exact Nat.le_refl _
  | cons c cs ih =>
    have hpos := c.utf8Size_pos
    rw [lines, byteSize_cons]
    by_cases hc : c = '\n'
    · rw [if_pos hc, List.length_cons]
      omega
    · rw [if_neg hc]
      cases hcs : lines cs with
      | nil =>
        rw [List.length_singleton]
        omega
      | cons l ls =>
        rw [hcs] at ih
        rw [List.length_cons] at ih ⊢
        omega

theorem isLine_of_mem {ls : List (List Char)} (h : Lined ls) {l : List Char} (hl : l ∈ ls) :
    IsLine l := by
  obtain ⟨x, y, rfl⟩ := List.append_of_mem hl
  exact (lined_append.1 h).2.1.1

theorem Lined.map {ls : List (List Char)} (h : Lined ls) {g : List Char → List Char}
    (hg : ∀ l ∈ ls, IsLine (g l) ∧ (WholeLines l → WholeLines (g l))) : Lined (ls.map g) := by
  induction ls with
  | nil => trivial
  | cons l ls ih =>
    obtain ⟨-, hended, hls⟩ := h
    obtain ⟨hl, hwhole⟩ := hg l (by simp)
    exact ⟨hl, fun hne => hwhole (hended (by simpa using hne)),
      ih hls fun l' hl' => hg l' (by simp [hl'])⟩

/-! ### Lines whose contents are rewritten -/

theorem IsLine.newline_not_mem_content {l : List Char} (h : IsLine l) : '\n' ∉ content l := by
  intro hmem
  by_cases hnil : ending l = []
  · -- the newline is the last character of the line, and contents do not end with one
    have hl : content l = l := by simpa [hnil] using content_append_ending l
    have hlast : l.getLast h.1 = '\n' := by
      have hsplit := hl ▸ hmem
      rw [← List.dropLast_concat_getLast h.1, List.mem_append] at hsplit
      exact (List.mem_singleton.1 (hsplit.resolve_left h.2)).symm
    have hcontent := getLast?_content l
    rw [hl, List.getLast?_eq_some_getLast h.1, hlast] at hcontent
    exact absurd hcontent (by decide)
  · refine h.2 ?_
    rw [← content_append_ending l, List.dropLast_append_of_ne_nil hnil]
    exact List.mem_append_left _ hmem

/-- A line stays a line with another content. -/
theorem IsLine.append_ending {l a : List Char} (h : IsLine l) (ha : '\n' ∉ a)
    (hne : a ++ ending l ≠ []) : IsLine (a ++ ending l) := by
  refine ⟨hne, ?_⟩
  by_cases hnil : ending l = []
  · rw [hnil, List.append_nil]
    exact fun hmem => ha (List.dropLast_subset a hmem)
  · have hending : '\n' ∉ (ending l).dropLast := by
      have hl := h.2
      rw [← content_append_ending l, List.dropLast_append_of_ne_nil hnil, List.mem_append,
        not_or] at hl
      exact hl.2
    rw [List.dropLast_append_of_ne_nil hnil, List.mem_append, not_or]
    exact ⟨ha, hending⟩

/-- A line that ends with a newline still does so with another content. -/
theorem WholeLines.append_ending {l : List Char} (h : WholeLines l) (hne : l ≠ [])
    (a : List Char) : WholeLines (a ++ ending l) := by
  have hnil : ending l ≠ [] := by
    intro hnil
    have hl : content l = l := by simpa [hnil] using content_append_ending l
    have hcontent := getLast?_content l
    rw [hl, h.getLast? hne] at hcontent
    exact absurd hcontent (by decide)
  have hending : WholeLines (ending l) :=
    WholeLines.of_append (a := content l) (by rwa [content_append_ending])
  exact hending.prepend hnil a

/-- **Contents that are rewritten without newlines keep the text in the same lines.** -/
theorem lines_mapLines {f : List Char → List Char} {cs : List Char}
    (h : ∀ l ∈ lines cs, '\n' ∉ f (content l) ∧ f (content l) ++ ending l ≠ []) :
    lines (mapLines f cs) = (lines cs).map fun l => f (content l) ++ ending l := by
  refine lines_flatten ((lined_lines cs).map fun l hl => ?_)
  have hline := isLine_of_mem (lined_lines cs) hl
  obtain ⟨hnot, hne⟩ := h l hl
  exact ⟨hline.append_ending hnot hne, fun hwhole => hwhole.append_ending hline.1 _⟩

end TemplateStyler.Text
