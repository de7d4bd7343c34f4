import TemplateStyler.Proofs.Block.Rewrite

/-!
# Contents that are written back

A document may be rewritten with the very contents that its blocks have. Then its delimiter lines
get new dots, and nothing else should change.

* `normalized`: the lines of the document with new dots on the delimiter lines of its blocks.
* `lines_rewriteAll_own_iff`: **writing the contents back gives these lines, unless a block starts
  with an empty line or its opening line has not a mere newline at its end.** Such an empty line is
  lost, and such a line end is replaced.
-/

namespace TemplateStyler.Block

open Text

/-- The lines of a document with dots of a number on the delimiter lines of its blocks. Each keeps
the ending that it has. -/
def normalized (dots : Nat) (document : Text) : List Text :=
  (roles document).map fun p => if p.1 = .delimiter then delimiter dots ++ ending p.2 else p.2

/-! ### One section -/

theorem ended_of_wholeLines {a : Text} (h : WholeLines a) : ended a = a := by
  rw [ended, if_pos, List.append_nil]
  rw [Bool.or_eq_true, List.isEmpty_iff, decide_eq_true_eq]
  exact wholeLines_iff.1 h

/-- Of whole lines that are stored, an empty one at the start is lost. -/
theorem lines_eq_of_wholeLines {a : Text} (h : WholeLines a) :
    Text.lines a = (if a.head? = some '\n' then [['\n']] else []) ++ Text.lines (stored a) := by
  rw [stored_eq]
  by_cases hhead : a.head? = some '\n'
  · obtain ⟨cs, rfl⟩ := List.head?_eq_some_iff.1 hhead
    rw [if_pos hhead, if_pos hhead, List.tail_cons, ended_of_wholeLines (h.of_append (a := ['\n'])),
      Text.lines, if_pos rfl]
    rfl
  · rw [if_neg hhead, if_neg hhead, ended_of_wholeLines h, List.nil_append]

namespace Section

/-- The section with dots of a number on its delimiter lines. -/
def normalized (dots : Nat) (s : Section) : Section :=
  { s with
    opening := delimiter dots ++ ending s.opening
    closing := delimiter dots ++ ending s.closing }

/-- The section rewritten with the content that it has. -/
def writtenBack (dots : Nat) (s : Section) : Section := s.rewritten dots s.content.flatten

theorem map_roles (dots : Nat) (s : Section) :
    (s.roles.map fun p => if p.1 = .delimiter then delimiter dots ++ ending p.2 else p.2) =
      (s.normalized dots).lines := by
  simp [roles, normalized, lines, Function.comp_def]

/-- Of the lines of its content, a section that is written back loses an empty one at the start. -/
theorem content_eq {s : Section} {more : List Text} (h : Lined (s.lines ++ more)) (dots : Nat) :
    s.content =
      (if s.content.flatten.head? = some '\n' then [['\n']] else [])
        ++ (s.writtenBack dots).content := by
  rw [lines_append] at h
  obtain ⟨hcontent, -, hwhole⟩ := lined_append.1 (lined_append.1 h).2.1.2.2
  have hlines := lines_eq_of_wholeLines (wholeLines_flatten (hwhole (by simp)))
  rwa [lines_flatten hcontent] at hlines

theorem length_writtenBack_le {s : Section} {more : List Text} (h : Lined (s.lines ++ more))
    (dots : Nat) : (s.writtenBack dots).lines.length ≤ (s.normalized dots).lines.length := by
  have hcontent := congrArg List.length (content_eq h dots)
  rw [List.length_append] at hcontent
  rw [length_lines, length_lines]
  simp only [normalized, writtenBack, rewritten] at hcontent ⊢
  omega

theorem writtenBack_eq_iff {s : Section} {more : List Text} (h : Lined (s.lines ++ more))
    (dots : Nat) :
    (s.writtenBack dots).lines = (s.normalized dots).lines ↔
      s.content.flatten.head? ≠ some '\n' ∧ ending s.opening = ['\n'] := by
  have hcontent : (s.writtenBack dots).content = s.content ↔
      s.content.flatten.head? ≠ some '\n' := by
    have heq := content_eq h dots
    constructor
    · intro hsame hhead
      rw [if_pos hhead, hsame] at heq
      exact List.cons_ne_self _ _ heq.symm
    · intro hhead
      rwa [if_neg hhead, List.nil_append, eq_comm] at heq
  have hopening : delimiter dots ++ ['\n'] = delimiter dots ++ ending s.opening ↔
      ending s.opening = ['\n'] := by
    rw [List.append_cancel_left_eq, eq_comm]
  rw [← hcontent, ← hopening, lines, lines]
  simp only [writtenBack, rewritten, normalized, List.append_cancel_left_eq, List.cons.injEq,
    List.append_cancel_right_eq]
  exact And.comm

end Section

/-! ### The whole document -/

theorem Sectioned.normalized_eq {document : Text} {ss : List Section} {rest : List Text}
    (h : Sectioned (Text.lines document) ss rest) (dots : Nat) :
    normalized dots document = ss.flatMap (fun s => (s.normalized dots).lines) ++ rest := by
  rw [normalized, h.roles_eq, List.map_append, List.map_flatMap]
  simp only [Section.map_roles]
  simp [Function.comp_def]

theorem length_flatMap_le {α β : Type} {f g : α → List β} {l : List α}
    (h : ∀ a ∈ l, (f a).length ≤ (g a).length) : (l.flatMap f).length ≤ (l.flatMap g).length := by
  induction l with
  | nil => exact Nat.le_refl _
  | cons a l ih =>
    obtain ⟨ha, hl⟩ := List.forall_mem_cons.1 h
    rw [List.flatMap_cons, List.flatMap_cons, List.length_append, List.length_append]
    exact Nat.add_le_add ha (ih hl)

/-- Lists that are made of parts, none of them longer in the first list, are equal part by part. -/
theorem flatMap_eq_flatMap_iff {α β : Type} {f g : α → List β} {l : List α}
    (hlength : ∀ a ∈ l, (f a).length ≤ (g a).length) :
    l.flatMap f = l.flatMap g ↔ ∀ a ∈ l, f a = g a := by
  constructor
  · intro h
    induction l with
    | nil => simp
    | cons a l ih =>
      rw [List.flatMap_cons, List.flatMap_cons] at h
      obtain ⟨ha, hl⟩ := List.forall_mem_cons.1 hlength
      have hrest := length_flatMap_le hl
      -- the lengths add up to the same sum, so that the first parts have one length
      have hsum := congrArg List.length h
      rw [List.length_append, List.length_append] at hsum
      obtain ⟨hfirst, hsecond⟩ := List.append_inj h (by omega)
      exact List.forall_mem_cons.2 ⟨hfirst, ih hl hsecond⟩
  · intro h
    rw [List.flatMap_def, List.flatMap_def, List.map_congr_left h]

/-- The blocks of sections, by their opening lines and their texts. -/
theorem forall_mem_blocksFrom {P : Text → Text → Prop} (ss : List Section)
    (front rest : List Text) :
    (∀ b ∈ blocksFrom front.length ss,
        P ((front ++ (ss.flatMap Section.lines ++ rest)).getD b.start []) b.text) ↔
      ∀ s ∈ ss, P s.opening s.content.flatten := by
  induction ss generalizing front with
  | nil => simp [blocksFrom]
  | cons s ss ih =>
    have hnext := ih (front ++ s.lines)
    have hopening : (front ++ ((s :: ss).flatMap Section.lines ++ rest)).getD
        (s.block front.length).start [] = s.opening := by
      rw [List.flatMap_cons, List.append_assoc, Section.lines_append, ← List.append_assoc,
        Section.block, ← List.length_append, List.getD_eq_getElem?_getD,
        List.getElem?_append_right (Nat.le_refl _), Nat.sub_self]
      rfl
    rw [blocksFrom, List.forall_mem_cons, List.forall_mem_cons, hopening, Section.text_block,
      ← hnext, List.length_append, List.flatMap_cons, List.append_assoc, List.append_assoc]

/-- **Writing the contents of a document back** puts new dots on the delimiter lines and leaves all
else, if and only if no block starts with an empty line and every opening line ends with a mere
newline. -/
theorem lines_rewriteAll_own_iff (document : Text) (dots : Nat) :
    Text.lines (rewriteAll document dots ((extract document).map text)) = normalized dots document ↔
      ∀ b ∈ extract document, b.text.head? ≠ some '\n' ∧
        ending ((Text.lines document).getD b.start []) = ['\n'] := by
  obtain ⟨ss, rest, h⟩ := exists_sectioned (Text.lines document)
  have hlined : Lined (ss.flatMap Section.lines ++ rest) := h.eq ▸ lined_lines document
  have hparts : ∀ s ∈ ss, ∃ more, Lined (s.lines ++ more) := by
    intro s hs
    obtain ⟨x, y, rfl⟩ := List.append_of_mem hs
    rw [List.flatMap_append, List.append_assoc, List.flatMap_cons, List.append_assoc] at hlined
    exact ⟨_, (lined_append.1 hlined).2.1⟩
  have hwritten : rewrittenAll dots ss (ss.map fun s => s.content.flatten) =
      ss.map (Section.writtenBack dots) := by
    rw [rewrittenAll, List.zipWith_map_right, List.zipWith_self]
    rfl
  have hextract : extract document = blocksFrom 0 ss := h.extractFrom_eq 0
  rw [hextract, map_text_blocksFrom, lines_rewriteAll h (List.length_map _), hwritten,
    h.normalized_eq, List.append_cancel_right_eq, List.flatMap_map, flatMap_eq_flatMap_iff, h.eq]
  · have hblocks := forall_mem_blocksFrom
      (P := fun opening text => text.head? ≠ some '\n' ∧ ending opening = ['\n']) ss [] rest
    refine Iff.trans ?_ hblocks.symm
    refine forall₂_congr fun s hs => ?_
    obtain ⟨more, hmore⟩ := hparts s hs
    exact Section.writtenBack_eq_iff hmore dots
  · intro s hs
    obtain ⟨more, hmore⟩ := hparts s hs
    exact Section.length_writtenBack_le hmore dots

end TemplateStyler.Block
