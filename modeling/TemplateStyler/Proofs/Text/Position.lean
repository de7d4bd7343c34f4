import TemplateStyler.Proofs.Text.Ends

/-!
# Positions and line starts

A position of a text is the size of one of its beginnings. The functions on positions are read off
such beginnings here, so that later proofs speak of `a ++ b` and of `byteSize a` only.

* `cut?_eq_some_iff`: a text is cut exactly where a beginning of that size ends. Two beginnings are
  comparable by their sizes (`prefix_of_byteSize_le`), and two positions cut a text into three parts
  (`exists_middle`), of which the second is the slice between them (`slice?_eq_some_iff`).
* `WithinLine`: a text without line ends.
* `WholeLines`: a text that is empty or ends with a newline. A line starts where such a beginning
  ends (`IsLineStart`); `lineStart` finds the last of them (`exists_lineStart`), `nextLineStart` the
  next one or the end of the text (`nextLineStart_cases`, `nextLineStart_le`).
-/

namespace TemplateStyler.Text

/-! ### Beginnings and their sizes -/

theorem byteSize_pos {cs : List Char} (h : cs ≠ []) : 0 < byteSize cs := by
  cases cs with
  | nil => exact absurd rfl h
  | cons c cs =>
    have := c.utf8Size_pos
    rw [byteSize_cons]
    omega

theorem byteSize_eq_zero {cs : List Char} : byteSize cs = 0 ↔ cs = [] := by
  constructor
  · intro h
    by_contra hne
    have := byteSize_pos hne
    omega
  · rintro rfl
    rfl

@[simp] theorem cut?_append (a b : List Char) : cut? (a ++ b) (byteSize a) = some (a, b) := by
  induction a with
  | nil => cases b <;> rfl
  | cons c a ih =>
    obtain ⟨n, hn⟩ : ∃ n, byteSize (c :: a) = n + 1 :=
      ⟨byteSize (c :: a) - 1, by have := byteSize_pos (List.cons_ne_nil c a); omega⟩
    have hsum : n + 1 = c.utf8Size + byteSize a := by rw [← hn, byteSize_cons]
    rw [hn, List.cons_append, cut?, if_pos (by omega)]
    rw [show n + 1 - c.utf8Size = byteSize a by omega, ih]
    rfl

/-- A text is cut where one of its beginnings ends, and nowhere else. -/
theorem cut?_eq_some_iff {cs a b : List Char} {n : Nat} :
    cut? cs n = some (a, b) ↔ cs = a ++ b ∧ byteSize a = n := by
  refine ⟨eq_append_of_cut?, ?_⟩
  rintro ⟨rfl, rfl⟩
  exact cut?_append a b

theorem cut_eq_ok_iff {cs : List Char} {n : Nat} {parts : List Char × List Char} :
    cut cs n = .ok parts ↔ cs = parts.1 ++ parts.2 ∧ byteSize parts.1 = n := by
  rw [← cut?_eq_some_iff, cut]
  cases cut? cs n with
  | none => simp
  | some p => simp

/-- **Of two beginnings of a text the smaller one is a beginning of the other.** -/
theorem prefix_of_byteSize_le {a b a' b' : List Char} (h : a ++ b = a' ++ b')
    (hle : byteSize a ≤ byteSize a') : ∃ c, a' = a ++ c ∧ b = c ++ b' := by
  rcases List.append_eq_append_iff.1 h with ⟨c, hc, hb⟩ | ⟨c, hc, hb⟩
  · exact ⟨c, hc, hb⟩
  · have hz : byteSize c = 0 := by
      rw [hc, byteSize_append] at hle
      omega
    rw [byteSize_eq_zero] at hz
    subst hz
    exact ⟨[], by simpa using hc.symm, by simpa using hb.symm⟩

@[simp] theorem upTo_append (a b : List Char) : upTo (a ++ b) (byteSize a) = a := by
  induction a with
  | nil =>
    cases b with
    | nil => rfl
    | cons c b =>
      have := c.utf8Size_pos
      simp only [List.nil_append, byteSize_nil, upTo]
      rw [if_neg (by omega)]
  | cons c a ih =>
    simp only [List.cons_append, byteSize_cons, upTo]
    rw [if_pos (by omega), show c.utf8Size + byteSize a - c.utf8Size = byteSize a by omega, ih]

theorem upTo_prefix (cs : List Char) (n : Nat) : upTo cs n <+: cs := by
  induction cs generalizing n with
  | nil => simp [upTo]
  | cons c cs ih =>
    simp only [upTo]
    split
    · exact List.cons_prefix_cons.2 ⟨rfl, ih _⟩
    · simp

/-- Every number is lowered to the size of a beginning. -/
theorem exists_floorBoundary (cs : List Char) (n : Nat) :
    ∃ a b, cs = a ++ b ∧ byteSize a = floorBoundary cs n := by
  obtain ⟨b, hb⟩ := upTo_prefix cs n
  exact ⟨upTo cs n, b, hb.symm, rfl⟩

@[simp] theorem floorBoundary_append (a b : List Char) :
    floorBoundary (a ++ b) (byteSize a) = byteSize a := by
  rw [floorBoundary, upTo_append]

theorem upTo_of_byteSize_le {cs : List Char} {n : Nat} (h : byteSize cs ≤ n) : upTo cs n = cs := by
  induction cs generalizing n with
  | nil => rfl
  | cons c cs ih =>
    rw [byteSize_cons] at h
    rw [upTo, if_pos (by omega), ih (by omega)]

theorem floorBoundary_of_byteSize_le {cs : List Char} {n : Nat} (h : byteSize cs ≤ n) :
    floorBoundary cs n = byteSize cs := by
  rw [floorBoundary, upTo_of_byteSize_le h]

/-- The positions of a text are the sizes of its beginnings. -/
theorem isBoundary_iff {cs : List Char} {n : Nat} :
    isBoundary cs n = true ↔ ∃ a b, cs = a ++ b ∧ byteSize a = n := by
  rw [isBoundary, Option.isSome_iff_exists]
  constructor
  · rintro ⟨⟨a, b⟩, hcut⟩
    exact ⟨a, b, cut?_eq_some_iff.1 hcut⟩
  · rintro ⟨a, b, hab⟩
    exact ⟨(a, b), cut?_eq_some_iff.2 hab⟩

/-- They are not lowered. -/
theorem floorBoundary_of_isBoundary {cs : List Char} {n : Nat} (h : isBoundary cs n = true) :
    floorBoundary cs n = n := by
  obtain ⟨a, b, rfl, rfl⟩ := isBoundary_iff.1 h
  exact floorBoundary_append a b

theorem isBoundary_floorBoundary (cs : List Char) (n : Nat) :
    isBoundary cs (floorBoundary cs n) = true :=
  isBoundary_iff.2 (exists_floorBoundary cs n)

theorem floorBoundary_le_byteSize (cs : List Char) (n : Nat) :
    floorBoundary cs n ≤ byteSize cs := by
  obtain ⟨a, b, hab, hsize⟩ := exists_floorBoundary cs n
  rw [← hsize, hab, byteSize_append]
  omega

/-! ### Parts of a text -/

theorem slice?_append (a b c : Text) :
    slice? (a ++ (b ++ c)) (byteSize a) (byteSize (a ++ b)) = some b := by
  have hle : ¬ byteSize (a ++ b) < byteSize a := by
    rw [byteSize_append]
    omega
  rw [slice?, if_neg hle, cut?_append, byteSize_append, Nat.add_sub_cancel_left]
  simp [cut?_append]

theorem isBoundary_append (a b : Text) : isBoundary (a ++ b) (byteSize a) = true :=
  isBoundary_iff.2 ⟨a, b, rfl, rfl⟩

/-- A text between two of its positions. -/
theorem exists_middle {text : Text} {start stop : Nat} (hstart : isBoundary text start = true)
    (hstop : isBoundary text stop = true) (hle : start ≤ stop) :
    ∃ a b c, text = a ++ (b ++ c) ∧ byteSize a = start ∧ byteSize (a ++ b) = stop := by
  obtain ⟨a, d, rfl, rfl⟩ := isBoundary_iff.1 hstart
  obtain ⟨ab, c, hsplit, rfl⟩ := isBoundary_iff.1 hstop
  obtain ⟨b, rfl, rfl⟩ := prefix_of_byteSize_le hsplit hle
  exact ⟨a, b, c, rfl, rfl, rfl⟩

/-! ### Slices -/

theorem slice?_eq_some_iff {text part : Text} {start stop : Nat} :
    slice? text start stop = some part ↔
      ∃ a c, text = a ++ (part ++ c) ∧ byteSize a = start ∧ byteSize (a ++ part) = stop := by
  constructor
  · intro h
    rw [slice?] at h
    split at h
    · cases h
    · next hle =>
      obtain ⟨⟨a, rest⟩, hfirst, h⟩ := Option.bind_eq_some_iff.1 h
      obtain ⟨⟨b, c⟩, hsecond, heq⟩ := Option.bind_eq_some_iff.1 h
      obtain ⟨rfl, rfl⟩ := cut?_eq_some_iff.1 hfirst
      obtain ⟨rfl, hsize⟩ := cut?_eq_some_iff.1 hsecond
      cases heq
      exact ⟨a, c, rfl, rfl, by rw [byteSize_append]; omega⟩
  · rintro ⟨a, c, rfl, rfl, rfl⟩
    exact slice?_append a part c

theorem isBoundary_of_slice? {text part : Text} {start stop : Nat}
    (h : slice? text start stop = some part) : isBoundary text stop = true := by
  obtain ⟨a, c, rfl, -, rfl⟩ := slice?_eq_some_iff.1 h
  rw [← List.append_assoc]
  exact isBoundary_append _ _

/-- Slices side by side make up one. -/
theorem slice?_trans {text a b : Text} {start middle stop : Nat}
    (ha : slice? text start middle = some a) (hb : slice? text middle stop = some b) :
    slice? text start stop = some (a ++ b) := by
  obtain ⟨x, rest, rfl, rfl, rfl⟩ := slice?_eq_some_iff.1 ha
  obtain ⟨y, z, hsplit, hy, rfl⟩ := slice?_eq_some_iff.1 hb
  rw [← List.append_assoc] at hsplit
  obtain ⟨rfl, rfl⟩ := List.append_inj hsplit (by
    obtain ⟨c, rfl, -⟩ := prefix_of_byteSize_le hsplit hy.ge
    have hc : byteSize c = 0 := by rw [byteSize_append] at hy; omega
    rw [byteSize_eq_zero.1 hc, List.append_nil])
  exact slice?_eq_some_iff.2 ⟨x, z, by simp, rfl, by simp⟩

/-- A text is sliced between any two of its positions. -/
theorem exists_slice? {text : Text} {start stop : Nat} (hstart : isBoundary text start = true)
    (hstop : isBoundary text stop = true) (hle : start ≤ stop) :
    ∃ part, slice? text start stop = some part ∧ byteSize part = stop - start := by
  obtain ⟨a, b, c, rfl, rfl, rfl⟩ := exists_middle hstart hstop hle
  exact ⟨b, slice?_append a b c, by rw [byteSize_append]; omega⟩

/-! ### Within a line -/

/-- A text without carriage returns and newlines. -/
def WithinLine (cs : Text) : Prop := ∀ c ∈ cs, isLineEnd c = false

instance (cs : Text) : Decidable (WithinLine cs) :=
  List.decidableBAll (fun c => isLineEnd c = false) cs

theorem WithinLine.not_mem {cs : Text} (h : WithinLine cs) {c : Char} (hc : isLineEnd c = true) :
    c ∉ cs := fun hmem => by
  rw [h c hmem] at hc
  cases hc

theorem WithinLine.newline_not_mem {cs : Text} (h : WithinLine cs) : '\n' ∉ cs := h.not_mem rfl

theorem withinLine_append {a b : Text} :
    WithinLine (a ++ b) ↔ WithinLine a ∧ WithinLine b := List.forall_mem_append

/-! ### Whole lines -/

/-- A text made of whole lines: it is empty or ends with a newline. -/
def WholeLines (a : List Char) : Prop := a.getLast?.all (· == '\n') = true

instance (a : List Char) : Decidable (WholeLines a) := by unfold WholeLines; infer_instance

theorem wholeLines_nil : WholeLines [] := rfl

theorem wholeLines_snoc (a : List Char) : WholeLines (a ++ ['\n']) := by
  simp [WholeLines]

theorem wholeLines_iff {a : List Char} : WholeLines a ↔ a = [] ∨ a.getLast? = some '\n' := by
  cases h : a.getLast? with
  | none => simp [WholeLines, List.getLast?_eq_none_iff.1 h]
  | some c =>
    have hne : a ≠ [] := by
      rintro rfl
      simp at h
    simp [WholeLines, h, hne]

theorem WholeLines.getLast? {a : List Char} (h : WholeLines a) (hne : a ≠ []) :
    a.getLast? = some '\n' := (wholeLines_iff.1 h).resolve_left hne

theorem WholeLines.append {a b : List Char} (ha : WholeLines a) (hb : WholeLines b) :
    WholeLines (a ++ b) := by
  rcases wholeLines_iff.1 hb with rfl | hb
  · simpa using ha
  · exact wholeLines_iff.2 (Or.inr (by simp [List.getLast?_append, hb]))

theorem WholeLines.of_append {a b : List Char} (h : WholeLines (a ++ b)) : WholeLines b := by
  by_cases hb : b = []
  · rw [hb]
    exact wholeLines_nil
  · have hlast := h.getLast? (by simp [hb])
    rw [List.getLast?_append, Option.or_of_isSome (by simpa using hb)] at hlast
    exact wholeLines_iff.2 (Or.inr hlast)

/-- Whether a text ends with its line depends on its last part alone. -/
theorem wholeLines_append_congr {u x a : List Char} (ha : a ≠ []) :
    WholeLines (u ++ a) ↔ WholeLines (x ++ a) := by
  have hlast : ∀ v : List Char, (v ++ a).getLast? = a.getLast? := by
    intro v
    rw [List.getLast?_append, Option.or_of_isSome (by simpa using ha)]
  rw [WholeLines, WholeLines, hlast, hlast]

theorem WholeLines.prepend {a : List Char} (h : WholeLines a) (hne : a ≠ []) (u : List Char) :
    WholeLines (u ++ a) := (wholeLines_append_congr (x := []) hne).2 h

/-- Whole lines that are not empty begin with a line of their own. -/
theorem WholeLines.exists_line {a : List Char} (h : WholeLines a) (hne : a ≠ []) :
    ∃ line rest, a = line ++ '\n' :: rest ∧ '\n' ∉ line ∧ WholeLines rest := by
  induction a with
  | nil => exact absurd rfl hne
  | cons c a ih =>
    by_cases hc : c = '\n'
    · subst hc
      exact ⟨[], a, rfl, by simp, h.of_append (a := ['\n'])⟩
    · have ha : a ≠ [] := by
        rintro rfl
        exact hc (by simpa [WholeLines] using h)
      obtain ⟨line, rest, rfl, hline, hrest⟩ := ih (h.of_append (a := [c])) ha
      exact ⟨c :: line, rest, rfl, by simp [hline, Ne.symm hc], hrest⟩

/-! ### Line starts -/

/-- A line starts at a position: what stands before it is made of whole lines. -/
def IsLineStart (cs : List Char) (pos : Nat) : Prop :=
  (cut? cs pos).any (fun parts => parts.1.getLast?.all (· == '\n')) = true

instance (cs : List Char) (pos : Nat) : Decidable (IsLineStart cs pos) := by
  unfold IsLineStart; infer_instance

theorem isLineStart_iff {cs : List Char} {pos : Nat} :
    IsLineStart cs pos ↔ ∃ a b, cs = a ++ b ∧ byteSize a = pos ∧ WholeLines a := by
  rw [IsLineStart, Option.any_eq_true]
  constructor
  · rintro ⟨⟨a, b⟩, hcut, ha⟩
    obtain ⟨hab, hsize⟩ := cut?_eq_some_iff.1 hcut
    exact ⟨a, b, hab, hsize, ha⟩
  · rintro ⟨a, b, hab, hsize, ha⟩
    exact ⟨(a, b), cut?_eq_some_iff.2 ⟨hab, hsize⟩, ha⟩

theorem isLineStart_append {a b : List Char} :
    IsLineStart (a ++ b) (byteSize a) ↔ WholeLines a := by
  rw [IsLineStart, cut?_append]
  rfl

theorem IsLineStart.le {cs : List Char} {pos : Nat} (h : IsLineStart cs pos) :
    pos ≤ byteSize cs := by
  obtain ⟨a, b, rfl, rfl, -⟩ := isLineStart_iff.1 h
  rw [byteSize_append]
  omega

/-- Line starts and the end of a text are not lowered. -/
theorem floorBoundary_eq_self {cs : List Char} {pos : Nat}
    (h : IsLineStart cs pos ∨ pos = byteSize cs) : floorBoundary cs pos = pos := by
  rcases h with hline | rfl
  · obtain ⟨a, b, rfl, rfl, -⟩ := isLineStart_iff.1 hline
    exact floorBoundary_append a b
  · exact floorBoundary_of_byteSize_le (Nat.le_refl _)

/-- A line start within a beginning of a text is one of the beginning. -/
theorem IsLineStart.exists_prefix {c d : List Char} {pos : Nat} (h : IsLineStart (c ++ d) pos)
    (hle : pos ≤ byteSize c) : ∃ a e, c = a ++ e ∧ byteSize a = pos ∧ WholeLines a := by
  obtain ⟨a, b, hab, rfl, ha⟩ := isLineStart_iff.1 h
  obtain ⟨e, hc, -⟩ := prefix_of_byteSize_le hab.symm hle
  exact ⟨a, e, hc, rfl, ha⟩

/-- No line starts within a line. -/
theorem IsLineStart.le_of_line {whole line rest : List Char} {pos : Nat}
    (h : IsLineStart (whole ++ line ++ rest) pos) (hline : '\n' ∉ line)
    (hle : pos ≤ byteSize (whole ++ line)) : pos ≤ byteSize whole := by
  by_contra hlt
  obtain ⟨a, e, he, rfl, ha⟩ := h.exists_prefix hle
  obtain ⟨l, rfl, rfl⟩ := prefix_of_byteSize_le he (Nat.le_of_not_le hlt)
  have hne : l ≠ [] := by
    rintro rfl
    simp at hlt
  exact hline (List.mem_append_left _ (List.mem_of_getLast? (ha.of_append.getLast? hne)))

/-- The line of a position starts after the last newline before it. -/
theorem exists_lineStart (a b : List Char) :
    ∃ whole line, a = whole ++ line ∧ WholeLines whole ∧ '\n' ∉ line ∧
      lineStart (a ++ b) (byteSize a) = byteSize whole := by
  obtain ⟨line, hsplit, hline⟩ := exists_dropEndWhile (· != '\n') a
  refine ⟨_, line, hsplit, ?_, fun hmem => absurd (hline _ hmem) (by simp), ?_⟩
  · have hlast := getLast?_dropEndWhile (· != '\n') a
    rw [WholeLines]
    cases h : (dropEndWhile (· != '\n') a).getLast? with
    | none => rfl
    | some c => simpa [h] using hlast
  · rw [lineStart, upTo_append]

theorem lineStart_append {whole line : List Char} (hwhole : WholeLines whole)
    (hline : '\n' ∉ line) (b : List Char) :
    lineStart (whole ++ line ++ b) (byteSize (whole ++ line)) = byteSize whole := by
  obtain ⟨whole', line', hsplit, hwhole', hline', hstart⟩ := exists_lineStart (whole ++ line) b
  rw [hstart]
  rcases List.append_eq_append_iff.1 hsplit with ⟨c, rfl, rfl⟩ | ⟨c, rfl, rfl⟩
  · rcases wholeLines_iff.1 hwhole'.of_append with rfl | hc
    · simp
    · exact absurd (List.mem_append_left _ (List.mem_of_getLast? hc)) hline
  · rcases wholeLines_iff.1 hwhole.of_append with rfl | hc
    · simp
    · exact absurd (List.mem_append_left _ (List.mem_of_getLast? hc)) hline'

theorem lineStart_eq_self_iff (a b : List Char) :
    lineStart (a ++ b) (byteSize a) = byteSize a ↔ WholeLines a := by
  constructor
  · intro h
    obtain ⟨whole, line, rfl, hwhole, -, hstart⟩ := exists_lineStart a b
    have hz : byteSize line = 0 := by
      rw [hstart, byteSize_append] at h
      omega
    rw [byteSize_eq_zero.1 hz, List.append_nil]
    exact hwhole
  · intro h
    simpa using lineStart_append h List.not_mem_nil b

theorem lineEndFrom_eq (pos : Nat) (b : List Char) :
    ('\n' ∉ b ∧ lineEndFrom pos b = pos + byteSize b) ∨
      ∃ line rest, b = line ++ '\n' :: rest ∧ '\n' ∉ line ∧
        lineEndFrom pos b = pos + byteSize (line ++ ['\n']) := by
  induction b generalizing pos with
  | nil => exact Or.inl ⟨by simp, rfl⟩
  | cons c b ih =>
    by_cases hc : c = '\n'
    · subst hc
      exact Or.inr ⟨[], b, rfl, by simp, rfl⟩
    · rw [lineEndFrom, if_neg hc]
      rcases ih (pos + c.utf8Size) with ⟨hmem, heq⟩ | ⟨line, rest, rfl, hmem, heq⟩
      · refine Or.inl ⟨by simp [hmem, Ne.symm hc], ?_⟩
        rw [heq, byteSize_cons]
        omega
      · refine Or.inr ⟨c :: line, rest, rfl, by simp [hmem, Ne.symm hc], ?_⟩
        rw [heq, List.cons_append, byteSize_cons]
        omega

/-- The next line starts behind the position, unless the text ends before. -/
theorem nextLineStart_cases (a b : List Char) :
    nextLineStart (a ++ b) (byteSize a) = byteSize (a ++ b) ∨
      byteSize a < nextLineStart (a ++ b) (byteSize a) ∧
        IsLineStart (a ++ b) (nextLineStart (a ++ b) (byteSize a)) := by
  have hnext : nextLineStart (a ++ b) (byteSize a) = lineEndFrom (byteSize a) b := by
    simp [nextLineStart]
  rw [hnext]
  rcases lineEndFrom_eq (byteSize a) b with ⟨-, heq⟩ | ⟨line, rest, rfl, -, heq⟩
  · exact Or.inl (by rw [heq, byteSize_append])
  · have hsize : byteSize a + byteSize (line ++ ['\n']) = byteSize (a ++ line ++ ['\n']) := by
      simp only [byteSize_append]
      omega
    rw [heq]
    refine Or.inr ⟨?_, ?_⟩
    · have hpos : 0 < byteSize (line ++ ['\n']) := byteSize_pos (by simp)
      omega
    · rw [hsize, show a ++ (line ++ '\n' :: rest) = a ++ line ++ ['\n'] ++ rest by simp,
        isLineStart_append]
      exact wholeLines_snoc _

/-- No line starts between a position and the next line. -/
theorem nextLineStart_le {a b : List Char} {pos : Nat} (h : IsLineStart (a ++ b) pos)
    (hlt : byteSize a < pos) : nextLineStart (a ++ b) (byteSize a) ≤ pos := by
  have hnext : nextLineStart (a ++ b) (byteSize a) = lineEndFrom (byteSize a) b := by
    simp [nextLineStart]
  have hline : ∀ line rest : List Char, b = line ++ rest → '\n' ∉ line →
      byteSize (a ++ line) < pos := by
    rintro line rest rfl hmem
    by_contra hle
    rw [← List.append_assoc] at h
    have := h.le_of_line hmem (Nat.le_of_not_lt hle)
    omega
  rw [hnext]
  rcases lineEndFrom_eq (byteSize a) b with ⟨hmem, heq⟩ | ⟨line, rest, hb, hmem, heq⟩
  · have hpos := hline b [] (List.append_nil b).symm hmem
    rw [byteSize_append] at hpos
    omega
  · have hpos := hline line ('\n' :: rest) hb hmem
    have hone : byteSize ['\n'] = 1 := rfl
    rw [byteSize_append] at hpos
    rw [heq, byteSize_append, hone]
    omega

end TemplateStyler.Text
