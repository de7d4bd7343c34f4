import TemplateStyler.Proofs.Directive.Checked
import TemplateStyler.Proofs.Directive.Restore
import TemplateStyler.Proofs.Text.Lines

/-!
# Hidden directives come back

A sentinel that is a word looks like no directive, keeps the indentation of its line readable and
never joins the line ending. So a text with its directives hidden has the lines that it had, its
sentinel lines stand where the directives stood, and the queue has these in the same order.

* `lines_substitute`: the lines of a text with its directives hidden.
* `restoreLines_hidden`: line by line, each sentinel takes the next directive from the queue.
* `restore_substitute`: **hiding the directives of a text and putting them back gives the text with
  its directives in their canonical spelling**, and leaves an empty queue.
-/

namespace TemplateStyler.Queue

open Text Directive

/-! ### Sentinels -/

/-- A sentinel is a word of ASCII letters, digits and underscores. -/
structure IsWord (sentinel : Text) : Prop where
  ne_nil : sentinel ≠ []
  all : sentinel.all (fun c => c.isAlphanum || c == '_') = true

theorem isSpace_of_word {c : Char} (h : (c.isAlphanum || c == '_') = true) : isSpace c = false := by
  have hrange : (65 ≤ c.toNat ∧ c.toNat ≤ 90) ∨ (97 ≤ c.toNat ∧ c.toNat ≤ 122) ∨
      (48 ≤ c.toNat ∧ c.toNat ≤ 57) ∨ c.toNat = 95 := by
    rcases Bool.or_eq_true_iff.1 h with h | h
    · rcases Bool.or_eq_true_iff.1 h with h | h
      · rcases Bool.or_eq_true_iff.1 h with h | h
        · exact Or.inl (of_decide_eq_true h)
        · obtain ⟨hfirst, hlast⟩ := Bool.and_eq_true_iff.1 h
          exact Or.inr (Or.inl ⟨of_decide_eq_true hfirst, of_decide_eq_true hlast⟩)
      · obtain ⟨hfirst, hlast⟩ := Bool.and_eq_true_iff.1 h
        exact Or.inr (Or.inr (Or.inl ⟨of_decide_eq_true hfirst, of_decide_eq_true hlast⟩))
    · exact Or.inr (Or.inr (Or.inr (congrArg Char.toNat (beq_iff_eq.1 h))))
  simp only [isSpace, Bool.or_eq_false_iff, Bool.and_eq_false_iff, decide_eq_false_iff_not,
    beq_eq_false_iff_ne]
  omega

namespace IsWord
variable {sentinel : Text}

theorem isSpace_eq_false (h : IsWord sentinel) {c : Char} (hc : c ∈ sentinel) : isSpace c = false :=
  isSpace_of_word (List.all_eq_true.1 h.all c hc)

theorem isBlank_eq_false (h : IsWord sentinel) {c : Char} (hc : c ∈ sentinel) : isBlank c = false :=
  Bool.eq_false_iff.2 fun hblank => by
    simpa [h.isSpace_eq_false hc] using isSpace_of_isBlank hblank

theorem isLineEnd_eq_false (h : IsWord sentinel) {c : Char} (hc : c ∈ sentinel) :
    isLineEnd c = false :=
  Bool.eq_false_iff.2 fun hend => by
    simpa [h.isSpace_eq_false hc] using isSpace_of_isLineEnd hend

/-! ### One line -/

theorem not_isBlank_head? (h : IsWord sentinel) : sentinel.head?.any isBlank = false := by
  obtain ⟨c, cs, rfl⟩ := List.exists_cons_of_ne_nil h.ne_nil
  exact h.isBlank_eq_false List.mem_cons_self

theorem indentation_append (h : IsWord sentinel) {a : Text} (ha : ∀ c ∈ a, isBlank c = true) :
    indentation (a ++ sentinel) = a :=
  indentation_blanks_append ha h.not_isBlank_head?

theorem isDirectiveLine_append (h : IsWord sentinel) {a : Text}
    (ha : ∀ c ∈ a, isBlank c = true) : isDirectiveLine (a ++ sentinel) = false := by
  rw [isDirectiveLine_blanks_append ha]
  refine Bool.eq_false_iff.2 fun hline => ?_
  obtain ⟨c, rest, hsentinel, hc⟩ := isDirectiveLine_iff.1 hline
  rw [dropWhile_eq_self h.not_isBlank_head?] at hsentinel
  have hmem : c ∈ sentinel := by
    rw [hsentinel]
    simp
  rw [h.isBlank_eq_false hmem] at hc
  cases hc

theorem isSentinelLine_append (h : IsWord sentinel) {a : Text} (ha : ∀ c ∈ a, isBlank c = true) :
    isSentinelLine sentinel (a ++ sentinel) = true := by
  have htrim := trim_append (b := sentinel) (c := []) (fun c hc => isSpace_of_isBlank (ha c hc))
    (by simp)
  rw [List.append_nil] at htrim
  rw [isSentinelLine, htrim, trim_eq_self fun c hc => h.isSpace_eq_false hc, beq_self_eq_true]

/-- A sentinel does not join the line ending behind it. -/
theorem getLast?_append (h : IsWord sentinel) (a : Text) :
    (a ++ sentinel).getLast?.any isLineEnd = false := by
  rw [List.getLast?_append, List.getLast?_eq_some_getLast h.ne_nil, Option.some_or]
  exact h.isLineEnd_eq_false (List.getLast_mem h.ne_nil)

end IsWord

section
variable {sentinel : Text}

theorem hide_of_directive {line : Text} (h : isDirectiveLine line = true) :
    hide sentinel line = indentation line ++ sentinel := if_pos h

theorem hide_of_not_directive {line : Text} (h : isDirectiveLine line = false) :
    hide sentinel line = line := if_neg (by simp [h])

/-- A hidden line is no directive line. -/
theorem isDirectiveLine_hide (hs : IsWord sentinel) (line : Text) :
    isDirectiveLine (hide sentinel line) = false := by
  cases h : isDirectiveLine line with
  | true =>
    rw [hide_of_directive h]
    exact hs.isDirectiveLine_append fun _ => isBlank_of_mem_indentation
  | false => rwa [hide_of_not_directive h]

theorem newline_not_mem_hide (hs : IsWord sentinel) {line : Text} (h : '\n' ∉ line) :
    '\n' ∉ hide sentinel line := by
  cases hd : isDirectiveLine line with
  | true =>
    rw [hide_of_directive hd, List.mem_append, not_or]
    exact ⟨fun hmem => absurd (isBlank_of_mem_indentation hmem) (by decide),
      fun hmem => absurd (hs.isLineEnd_eq_false hmem) (by decide)⟩
  | false => rwa [hide_of_not_directive hd]

theorem getLast?_hide (hs : IsWord sentinel) {line : Text}
    (h : line.getLast?.any isLineEnd = false) :
    (hide sentinel line).getLast?.any isLineEnd = false := by
  cases hd : isDirectiveLine line with
  | true =>
    rw [hide_of_directive hd]
    exact hs.getLast?_append _
  | false => rwa [hide_of_not_directive hd]

/-- A line with its directive hidden and the ending that it had. -/
def hideLine (sentinel l : Text) : Text := hide sentinel (content l) ++ ending l

theorem content_hideLine (hs : IsWord sentinel) (l : Text) :
    content (hideLine sentinel l) = hide sentinel (content l) :=
  content_append (getLast?_hide hs (getLast?_content l)) fun _ => isLineEnd_of_mem_ending

theorem ending_hideLine (hs : IsWord sentinel) (l : Text) :
    ending (hideLine sentinel l) = ending l :=
  ending_append (getLast?_hide hs (getLast?_content l)) fun _ => isLineEnd_of_mem_ending

theorem hideLine_of_not_directive {l : Text} (h : isDirectiveLine (content l) = false) :
    hideLine sentinel l = l := by
  rw [hideLine, hide_of_not_directive h, content_append_ending]

/-- **The lines of a text with its directives hidden** are its lines, each on its own. -/
theorem lines_substitute (hs : IsWord sentinel) (q : Queue) (text : Text) :
    lines (substitute { q with sentinel := sentinel } text).1 =
      (lines text).map (hideLine sentinel) := by
  refine lines_mapLines fun l hl => ?_
  have hline := isLine_of_mem (lined_lines text) hl
  refine ⟨newline_not_mem_hide hs hline.newline_not_mem_content, ?_⟩
  cases hd : isDirectiveLine (content l) with
  | true => simp [hide_of_directive hd, hs.ne_nil]
  | false =>
    rw [hide_of_not_directive hd, content_append_ending]
    exact hline.1

/-! ### All lines -/

/-- A line with its directive, where it is one, in the canonical spelling. -/
def canonical (line : Text) : Text :=
  if isDirectiveLine line then
    indentation line ++ Directive.normalize (line.drop (indentation line).length)
  else line

/-- The directives of lines, in order. -/
def directives (ls : List Text) : List Text :=
  ((ls.map content).filter isDirectiveLine).map directive

theorem normalize_directive (line : Text) :
    Directive.normalize (directive line) =
      Directive.normalize (line.drop (indentation line).length) := by
  rw [Directive.normalize, Directive.normalize, directive, trim_trimEnd]

/-- **Line by line, each sentinel takes the next directive from the queue**, as no other line is
taken for a sentinel. -/
theorem restoreLines_hidden (hs : IsWord sentinel) {ls : List Text}
    (hno : ∀ l ∈ ls, trim l ≠ sentinel) :
    restoreLines sentinel (directives ls) (ls.map (hideLine sentinel)) =
      ⟨(ls.map fun l => canonical (content l) ++ ending l).flatten, [], false⟩ := by
  induction ls with
  | nil => rfl
  | cons l ls ih =>
    have hrest := ih fun l' hl' => hno l' (by simp [hl'])
    rw [List.map_cons, List.map_cons, List.flatten_cons]
    cases hd : isDirectiveLine (content l) with
    | true =>
      have hqueue : directives (l :: ls) = directive (content l) :: directives ls := by
        simp [directives, hd]
      have hblank : ∀ c ∈ indentation (content l), isBlank c = true := fun _ =>
        isBlank_of_mem_indentation
      have hhidden := (content_hideLine hs l).trans (hide_of_directive hd)
      have hsentinel : isSentinelLine sentinel (content (hideLine sentinel l)) = true := by
        rw [hhidden]
        exact hs.isSentinelLine_append hblank
      rw [hqueue, restoreLines_of_sentinel hsentinel, hrest, hhidden, hs.indentation_append hblank,
        ending_hideLine hs, normalize_directive, canonical, if_pos hd]
    | false =>
      have hqueue : directives (l :: ls) = directives ls := by simp [directives, hd]
      have hsentinel : isSentinelLine sentinel (content l) = false := by
        rw [isSentinelLine, trim_content, beq_eq_false_iff_ne]
        exact hno l (by simp)
      rw [hqueue, hideLine_of_not_directive hd, restoreLines_of_not_sentinel hsentinel, hrest,
        canonical, hd, if_neg Bool.false_ne_true, content_append_ending]

/-- **Hiding the directives of a text and putting them back loses nothing.** The hidden text has no
directive line, the lines of the text with their endings, and all lines that were no directives as
they were. What comes back is the text with its directives in their canonical spelling, and the
queue is empty. -/
theorem restore_substitute (hs : IsWord sentinel) {text hidden : Text} {q : Queue}
    (hno : ∀ l ∈ lines text, trim l ≠ sentinel)
    (hhide : substitute { sentinel } text = (hidden, q)) :
    (∀ l ∈ lines hidden, isDirectiveLine (content l) = false) ∧
    (lines hidden).length = (lines text).length ∧
    (lines hidden).map ending = (lines text).map ending ∧
    (∀ (i : Nat) (l : Text), (lines text)[i]? = some l →
      isDirectiveLine (content l) = false → (lines hidden)[i]? = some l) ∧
    q.restore hidden = (some (mapLines canonical text), { sentinel }, []) := by
  obtain ⟨rfl, rfl⟩ := Prod.mk.inj hhide
  have hlines := lines_substitute hs { sentinel } text
  rw [substitute] at hlines
  simp only at hlines ⊢
  rw [hlines]
  refine ⟨fun l hl => ?_, List.length_map _, ?_, fun i l hl hd => ?_, ?_⟩
  · obtain ⟨l', -, rfl⟩ := List.mem_map.1 hl
    rw [content_hideLine hs]
    exact isDirectiveLine_hide hs _
  · rw [List.map_map]
    exact List.map_congr_left fun l _ => ending_hideLine hs l
  · rw [List.getElem?_map, hl, Option.map_some, hideLine_of_not_directive hd]
  · rw [restore, hlines]
    simp only [List.nil_append]
    have hrestored := restoreLines_hidden hs hno
    rw [directives] at hrestored
    rw [hrestored]
    rfl

/-- Directives with blanks of all kinds, one of them twice, between lines that stay. -/
theorem restore_substitute_blanks :
    ∃ (sentinel text hidden : Text) (q : Queue),
      sentinel = "S_1".toList ∧
      text = "\tlet a ,b  in 1..2 \r\nlet\n x S_1\r\n\tlet a ,b  in 1..2 ".toList ∧
      hidden = "\tS_1\r\nlet\n x S_1\r\n\tS_1".toList ∧
      IsWord sentinel ∧ (∀ l ∈ lines text, trim l ≠ sentinel) ∧
      substitute { sentinel } text = (hidden, q) ∧
      (∀ l ∈ lines hidden, isDirectiveLine (content l) = false) ∧
      q.restore hidden =
        (some "\tlet a, b in 1..2\r\nlet\n x S_1\r\n\tlet a, b in 1..2".toList,
          { sentinel }, []) := by
  have hword : IsWord "S_1".toList := ⟨by decide, by decide⟩
  obtain ⟨text, htext⟩ : ∃ text : Text,
      text = "\tlet a ,b  in 1..2 \r\nlet\n x S_1\r\n\tlet a ,b  in 1..2 ".toList := ⟨_, rfl⟩
  have hno : ∀ l ∈ lines text, trim l ≠ "S_1".toList := by
    rw [htext]
    decide
  have hhide : substitute ⟨"S_1".toList, []⟩ text = ("\tS_1\r\nlet\n x S_1\r\n\tS_1".toList,
      ⟨"S_1".toList, ["let a ,b  in 1..2".toList, "let a ,b  in 1..2".toList]⟩) := by
    rw [htext]
    decide
  obtain ⟨hnone, -, -, -, hrestore⟩ := restore_substitute hword hno hhide
  refine ⟨_, text, _, _, rfl, htext, rfl, hword, hno, hhide, hnone, ?_⟩
  rw [hrestore, htext]
  decide

end

end TemplateStyler.Queue
