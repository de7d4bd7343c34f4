import TemplateStyler.Directive.Basic
import TemplateStyler.Proofs.Text.Ends

/-!
# Pieces of a directive and their spelling

Blanks and commas part a directive into pieces. Which blanks they are does not matter, and a comma
is a piece of its own. The canonical spelling of a directive writes its pieces anew.

* `Directive.pieces`: the pieces of a text. `pieces_induction` goes through a text piece by piece.
* `Directive.spell`: pieces with one space between them and behind every comma, and none before one.
  Such a text has the pieces that it was made of (`pieces_spell`).
* `normalize_eq_spell`: **the canonical spelling of a text is that of its pieces**, white space
  around the text aside. So it has the same pieces (`pieces_trim_normalize`).
-/

namespace TemplateStyler.Directive

open Text

/-! ### Pieces -/

/-- Whether a character ends a piece. -/
def isBreak (c : Char) : Bool := isBlank c || c == ','

/-- The commas of a text and the longest stretches without blanks and commas, in order. -/
def pieces : Text → List Text
  | [] => []
  | c :: cs =>
    if isBlank c then pieces cs
    else if c = ',' then [','] :: pieces cs
    else if cs.head?.all isBreak then [c] :: pieces cs
    else (pieces cs).modifyHead (c :: ·)

/-- A comma, or a stretch without blanks and commas. -/
def IsPiece (p : Text) : Prop := p = [','] ∨ p ≠ [] ∧ ∀ c ∈ p, isBreak c = false

theorem isBreak_of_isBlank {c : Char} (h : isBlank c = true) : isBreak c = true :=
  Bool.or_eq_true_iff.2 (Or.inl h)

theorem isBreak_eq_false_iff {c : Char} : isBreak c = false ↔ isBlank c = false ∧ c ≠ ',' := by
  rw [isBreak, Bool.or_eq_false_iff, beq_eq_false_iff_ne]

theorem not_isBreak_of_all {p : Text} (h : p.all (!isBreak ·) = true) :
    ∀ c ∈ p, isBreak c = false := fun c hc => by
  simpa using List.all_eq_true.1 h c hc

@[simp] theorem pieces_nil : pieces [] = [] := rfl

theorem pieces_blank {c : Char} (h : isBlank c = true) (cs : Text) : pieces (c :: cs) = pieces cs :=
  if_pos h

@[simp] theorem pieces_comma (cs : Text) : pieces (',' :: cs) = [','] :: pieces cs := rfl

theorem pieces_cons {c : Char} (h : isBreak c = false) (cs : Text) :
    pieces (c :: cs) =
      if cs.head?.all isBreak then [c] :: pieces cs else (pieces cs).modifyHead (c :: ·) := by
  obtain ⟨hblank, hcomma⟩ := isBreak_eq_false_iff.1 h
  rw [pieces, if_neg (by simp [hblank]), if_neg hcomma]

/-- A stretch without blanks and commas is one piece. -/
theorem pieces_append {p rest : Text} (hne : p ≠ []) (hp : ∀ c ∈ p, isBreak c = false)
    (hrest : rest.head?.all isBreak = true) : pieces (p ++ rest) = p :: pieces rest := by
  induction p with
  | nil => exact absurd rfl hne
  | cons c p ih =>
    obtain ⟨hc, hp⟩ := List.forall_mem_cons.1 hp
    rw [List.cons_append, pieces_cons hc]
    cases p with
    | nil => exact if_pos hrest
    | cons d p =>
      have hd : isBreak d = false := hp d List.mem_cons_self
      rw [if_neg (by simp [hd]), ih (List.cons_ne_nil _ _) hp, List.modifyHead_cons]

/-- A text up to its first blank or comma. -/
theorem exists_stretch (cs : Text) : ∃ p rest, cs = p ++ rest ∧ (∀ c ∈ p, isBreak c = false) ∧
    rest.head?.all isBreak = true := by
  refine ⟨_, _, List.takeWhile_append_dropWhile.symm,
    fun c hc => by simpa using List.mem_takeWhile_imp (p := fun c => !isBreak c) hc, ?_⟩
  have hhead := List.head?_dropWhile_not (fun c => !isBreak c) cs
  cases h : (cs.dropWhile fun c => !isBreak c).head? with
  | none => rfl
  | some d => simpa [h] using hhead

/-- A text is empty, or starts with a blank, a comma or a stretch without both. -/
theorem pieces_induction {P : Text → Prop} (nil : P [])
    (blank : ∀ c cs, isBlank c = true → P cs → P (c :: cs))
    (comma : ∀ cs, P cs → P (',' :: cs))
    (stretch : ∀ p rest, p ≠ [] → (∀ c ∈ p, isBreak c = false) → rest.head?.all isBreak = true →
      P rest → P (p ++ rest))
    (text : Text) : P text := by
  induction hn : text.length using Nat.strong_induction_on generalizing text with
  | _ n ih => ?_
  subst hn
  cases text with
  | nil => exact nil
  | cons c cs => ?_
  by_cases hc : isBreak c = true
  · have hcs : P cs := ih cs.length (by simp) cs rfl
    rcases Bool.or_eq_true_iff.1 hc with hblank | hcomma
    · exact blank c cs hblank hcs
    · rw [beq_iff_eq.1 hcomma]
      exact comma cs hcs
  · obtain ⟨p, rest, rfl, hp, hrest⟩ := exists_stretch cs
    have hshort : rest.length < (c :: (p ++ rest)).length := by
      rw [List.length_cons, List.length_append]
      omega
    exact stretch (c :: p) rest (List.cons_ne_nil _ _)
      (List.forall_mem_cons.2 ⟨Bool.eq_false_iff.2 hc, hp⟩) hrest (ih _ hshort rest rfl)

theorem isPiece_of_mem_pieces {text p : Text} (h : p ∈ pieces text) : IsPiece p := by
  induction text using pieces_induction with
  | nil => exact absurd h List.not_mem_nil
  | blank c cs hc ih =>
    rw [pieces_blank hc] at h
    exact ih h
  | comma cs ih =>
    rw [pieces_comma] at h
    rcases List.mem_cons.1 h with rfl | h
    · exact Or.inl rfl
    · exact ih h
  | stretch q rest hne hq hrest ih =>
    rw [pieces_append hne hq hrest] at h
    rcases List.mem_cons.1 h with rfl | h
    · exact Or.inr ⟨hne, hq⟩
    · exact ih h

/-- Blanks before a text make no piece. -/
theorem pieces_blanks_append {blanks : Text} (h : ∀ c ∈ blanks, isBlank c = true) (cs : Text) :
    pieces (blanks ++ cs) = pieces cs := by
  induction blanks with
  | nil => rfl
  | cons c blanks ih =>
    obtain ⟨hc, hblanks⟩ := List.forall_mem_cons.1 h
    rw [List.cons_append, pieces_blank hc, ih hblanks]

theorem pieces_dropWhile (text : Text) : pieces (text.dropWhile isBlank) = pieces text := by
  have hblanks : ∀ c ∈ text.takeWhile isBlank, isBlank c = true := fun _ => List.mem_takeWhile_imp
  rw [← pieces_blanks_append hblanks, List.takeWhile_append_dropWhile]

/-- Nor do blanks behind it. -/
theorem pieces_append_blanks (cs : Text) {blanks : Text} (h : ∀ c ∈ blanks, isBlank c = true) :
    pieces (cs ++ blanks) = pieces cs := by
  have hhead : blanks.head?.all isBreak = true := by
    cases blanks with
    | nil => rfl
    | cons c blanks => exact isBreak_of_isBlank (h c List.mem_cons_self)
  induction cs using pieces_induction with
  | nil => simpa using pieces_blanks_append h []
  | blank c cs hc ih => rw [List.cons_append, pieces_blank hc, pieces_blank hc, ih]
  | comma cs ih => rw [List.cons_append, pieces_comma, pieces_comma, ih]
  | stretch p rest hne hp hrest ih =>
    rw [List.append_assoc, pieces_append hne hp hrest, pieces_append hne hp, ih]
    cases rest with
    | nil => exact hhead
    | cons d rest => exact hrest

/-! ### Spelling -/

/-- What stands between a piece and the next one. -/
def gap (p : Text) (next : Option Text) : Text :=
  if p = [','] ∨ next.any (· ≠ [',']) then [' '] else []

/-- Pieces in their canonical spelling. -/
def spell : List Text → Text
  | [] => []
  | p :: ps => p ++ (gap p ps.head? ++ spell ps)

@[simp] theorem spell_comma (ps : List Text) : spell ([','] :: ps) = ',' :: ' ' :: spell ps := rfl

theorem head?_gap_append {p : Text} {ps : List Text} (hps : ∀ q ∈ ps, IsPiece q) :
    (gap p ps.head? ++ spell ps).head?.all isBreak = true := by
  unfold gap
  split_ifs with h
  · rfl
  · cases ps with
    | nil => rfl
    | cons q ps =>
      obtain rfl : q = [','] := by simpa using (not_or.1 h).2
      rfl

/-- **The canonical spelling has the pieces that it was made of.** -/
theorem pieces_spell {ps : List Text} (h : ∀ p ∈ ps, IsPiece p) : pieces (spell ps) = ps := by
  induction ps with
  | nil => rfl
  | cons p ps ih =>
    obtain ⟨hp, hps⟩ := List.forall_mem_cons.1 h
    rcases hp with rfl | ⟨hne, hp⟩
    · rw [spell_comma, pieces_comma, pieces_blank rfl, ih hps]
    · have hgap : pieces (gap p ps.head? ++ spell ps) = pieces (spell ps) := by
        unfold gap
        split_ifs
        · exact pieces_blank rfl _
        · rfl
      rw [spell, pieces_append hne hp (head?_gap_append hps), hgap, ih hps]

/-! ### The canonical spelling of a text -/

theorem spaceCommas_blank {c : Char} (hc : isBlank c = true) (b : Bool) (cs : Text) :
    spaceCommas b (c :: cs) =
      if b = true ∨ (cs.dropWhile isBlank).head? = some ',' then spaceCommas b cs
      else c :: spaceCommas false cs := by
  have hcomma : ¬ c = ',' := by
    rintro rfl
    cases hc
  simp [spaceCommas, hc, hcomma]

@[simp] theorem spaceCommas_comma (b : Bool) (cs : Text) :
    spaceCommas b (',' :: cs) = ',' :: ' ' :: spaceCommas true cs := by
  simp [spaceCommas, isBlank]

theorem spaceCommas_cons {c : Char} (h : isBreak c = false) (b : Bool) (cs : Text) :
    spaceCommas b (c :: cs) = c :: spaceCommas false cs := by
  obtain ⟨hblank, hcomma⟩ := isBreak_eq_false_iff.1 h
  simp [spaceCommas, hblank, hcomma]

/-- Only a blank is looked at together with the comma before it. -/
theorem spaceCommas_of_not_blank {cs : Text} (h : cs.head?.any isBlank = false) (b b' : Bool) :
    spaceCommas b cs = spaceCommas b' cs := by
  cases cs with
  | nil => rfl
  | cons c cs =>
    have hc : isBlank c = false := h
    simp [spaceCommas, hc]

theorem spaceCommas_append {p : Text} (hp : ∀ c ∈ p, isBreak c = false) (hne : p ≠ [])
    (b : Bool) (cs : Text) : spaceCommas b (p ++ cs) = p ++ spaceCommas false cs := by
  induction p generalizing b with
  | nil => exact absurd rfl hne
  | cons c p ih =>
    obtain ⟨hc, hp⟩ := List.forall_mem_cons.1 hp
    rw [List.cons_append, spaceCommas_cons hc, List.cons_append]
    cases p with
    | nil => rfl
    | cons d p => rw [ih hp (List.cons_ne_nil _ _)]

theorem collapseBlanks_cons {c : Char} (h : isBlank c = false) (cs : Text) :
    collapseBlanks (c :: cs) = c :: collapseBlanks cs := by
  rw [collapseBlanks, if_neg (by simp [h])]

theorem collapseBlanks_append {p : Text} (hp : ∀ c ∈ p, isBlank c = false) (cs : Text) :
    collapseBlanks (p ++ cs) = p ++ collapseBlanks cs := by
  induction p with
  | nil => rfl
  | cons c p ih =>
    obtain ⟨hc, hp⟩ := List.forall_mem_cons.1 hp
    rw [List.cons_append, collapseBlanks_cons hc, ih hp, List.cons_append]

theorem collapseBlanks_blanks {blanks cs : Text} (hne : blanks ≠ [])
    (hblanks : ∀ c ∈ blanks, isBlank c = true) (hcs : cs.head?.any isBlank = false) :
    collapseBlanks (blanks ++ cs) = ' ' :: collapseBlanks cs := by
  induction blanks with
  | nil => exact absurd rfl hne
  | cons c blanks ih =>
    obtain ⟨hc, hblanks⟩ := List.forall_mem_cons.1 hblanks
    rw [List.cons_append, collapseBlanks, if_pos hc]
    cases blanks with
    | nil => rw [List.nil_append, if_neg (by simp [hcs])]
    | cons d blanks =>
      have hd : isBlank d = true := hblanks d List.mem_cons_self
      rw [List.cons_append, if_pos (by simp [hd]), ← List.cons_append,
        ih (List.cons_ne_nil _ _) hblanks]

theorem head?_collapseBlanks {cs : Text} (h : cs.head?.any isBlank = false) :
    (collapseBlanks cs).head? = cs.head? := by
  cases cs with
  | nil => rfl
  | cons c cs =>
    rw [collapseBlanks_cons h]
    rfl

/-- The first piece of a text that starts with a character of one. -/
theorem head?_pieces {cs : Text} (h : cs.head?.any isBlank = false) :
    (pieces cs).head?.any (· ≠ [',']) = cs.head?.any (· ≠ ',') := by
  cases cs with
  | nil => rfl
  | cons c cs => ?_
  by_cases hcomma : c = ','
  · rw [hcomma, pieces_comma]
    rfl
  · have hc : isBreak c = false := isBreak_eq_false_iff.2 ⟨h, hcomma⟩
    obtain ⟨p, rest, rfl, hp, hrest⟩ := exists_stretch cs
    rw [← List.cons_append, pieces_append (List.cons_ne_nil _ _)
      (List.forall_mem_cons.2 ⟨hc, hp⟩) hrest]
    simp [hcomma]

/-- Behind a stretch comes what parts it from the next piece. -/
theorem spaceCommas_collapseBlanks_gap {p rest : Text} (hp : p ≠ [','])
    (hrest : rest.head?.all isBreak = true) (hlast : rest.getLast?.any isBlank = false) :
    spaceCommas false (collapseBlanks rest) =
      gap p (pieces rest).head? ++ spaceCommas true (collapseBlanks rest) := by
  obtain ⟨blanks, cs, rfl, hblanks, hcs⟩ : ∃ blanks cs, rest = blanks ++ cs ∧
      (∀ c ∈ blanks, isBlank c = true) ∧ cs.head?.any isBlank = false :=
    ⟨_, _, List.takeWhile_append_dropWhile.symm, fun c => List.mem_takeWhile_imp,
      head?_dropWhile _ _⟩
  have hcollapsed : (collapseBlanks cs).head?.any isBlank = false := by
    rwa [head?_collapseBlanks hcs]
  have hgap : gap p (pieces cs).head? = if cs.head?.any (· ≠ ',') then [' '] else [] := by
    simp only [gap, hp, false_or, head?_pieces hcs]
  rw [pieces_blanks_append hblanks, hgap]
  -- blanks collapse to one space, which is kept before anything but a comma
  cases blanks with
  | nil =>
    have hcomma : cs.head?.any (· ≠ ',') = false := by
      cases cs with
      | nil => rfl
      | cons c cs =>
        have hc : isBreak c = true := hrest
        have hblank : isBlank c = false := hcs
        simpa [isBreak, hblank] using hc
    rw [List.nil_append, hcomma]
    exact spaceCommas_of_not_blank hcollapsed _ _
  | cons b blanks =>
    have hfirst : ((collapseBlanks cs).dropWhile isBlank).head? = cs.head? := by
      rw [dropWhile_eq_self hcollapsed, head?_collapseBlanks hcs]
    rw [collapseBlanks_blanks (List.cons_ne_nil _ _) hblanks hcs, spaceCommas_blank rfl,
      spaceCommas_blank rfl, hfirst, if_pos (Or.inl rfl)]
    cases cs with
    | nil =>
      rw [List.append_nil, List.getLast?_eq_some_getLast (List.cons_ne_nil _ _)] at hlast
      exact absurd (hblanks _ (List.getLast_mem _)) (by simpa using hlast)
    | cons c cs =>
      rw [spaceCommas_of_not_blank hcollapsed false true]
      by_cases hc : c = ','
      · simp [hc]
      · simp [hc]

theorem getLast?_of_append {p : Char → Bool} {a b : Text} (h : (a ++ b).getLast?.any p = false) :
    b.getLast?.any p = false := by
  cases hb : b.getLast? with
  | none => rfl
  | some c => simpa [List.getLast?_append, hb] using h

/-- Where no blank stands at the end, both steps together write the pieces anew. -/
theorem spaceCommas_collapseBlanks {cs : Text} (hlast : cs.getLast?.any isBlank = false) :
    spaceCommas true (collapseBlanks cs) = spell (pieces cs) := by
  induction cs using pieces_induction with
  | nil => rfl
  | blank c cs hc ih =>
    have hcollapsed : spaceCommas true (collapseBlanks (c :: cs)) =
        spaceCommas true (collapseBlanks cs) := by
      rw [collapseBlanks, if_pos hc]
      split_ifs
      · rfl
      · rw [spaceCommas_blank rfl, if_pos (Or.inl rfl)]
    rw [hcollapsed, pieces_blank hc, ih (getLast?_of_append (a := [c]) hlast)]
  | comma cs ih =>
    rw [collapseBlanks_cons rfl, spaceCommas_comma, pieces_comma, spell_comma,
      ih (getLast?_of_append (a := [',']) hlast)]
  | stretch p rest hne hp hrest ih =>
    have hrestLast := getLast?_of_append hlast
    have hcomma : p ≠ [','] := by
      rintro rfl
      exact absurd (hp ',' List.mem_cons_self) (by decide)
    rw [collapseBlanks_append fun c hc => (isBreak_eq_false_iff.1 (hp c hc)).1,
      spaceCommas_append hp hne, spaceCommas_collapseBlanks_gap hcomma hrest hrestLast,
      ih hrestLast, pieces_append hne hp hrest, spell]

/-! ### White space around a text -/

theorem head?_trim (text : Text) : (trim text).head?.any isSpace = false :=
  head?_dropEndWhile _ (head?_dropWhile _ _)

theorem getLast?_trim (text : Text) : (trim text).getLast?.any isSpace = false :=
  getLast?_dropEndWhile _ _

theorem not_blank_of_not_space {c : Option Char} (h : c.any isSpace = false) :
    c.any isBlank = false := by
  cases c with
  | none => rfl
  | some c =>
    refine Bool.eq_false_iff.2 fun hblank => ?_
    rw [Option.any_some] at h hblank
    rw [isSpace_of_isBlank hblank] at h
    cases h

/-- **The canonical spelling of a text is that of its pieces.** -/
theorem normalize_eq_spell (text : Text) : normalize text = spell (pieces (trim text)) := by
  have hfirst := not_blank_of_not_space (head?_trim text)
  have hlast := not_blank_of_not_space (getLast?_trim text)
  rw [← spaceCommas_collapseBlanks hlast, normalize]
  exact spaceCommas_of_not_blank (by rwa [head?_collapseBlanks hfirst]) _ _

/-- The pieces of a text hold all its characters but the blanks. -/
theorem flatten_pieces (text : Text) : (pieces text).flatten = text.filter (!isBlank ·) := by
  induction text using pieces_induction with
  | nil => rfl
  | blank c cs hc ih => rw [pieces_blank hc, ih, List.filter_cons_of_neg (by simp [hc])]
  | comma cs ih =>
    rw [pieces_comma, List.flatten_cons, ih, List.filter_cons_of_pos rfl]
    rfl
  | stretch p rest hne hp hrest ih =>
    have hall : p.filter (!isBlank ·) = p :=
      List.filter_eq_self.2 fun c hc => by simp [(isBreak_eq_false_iff.1 (hp c hc)).1]
    rw [pieces_append hne hp hrest, List.flatten_cons, ih, List.filter_append, hall]

theorem pieces_normalize (text : Text) : pieces (normalize text) = pieces (trim text) := by
  rw [normalize_eq_spell]
  exact pieces_spell fun _ => isPiece_of_mem_pieces

theorem filter_normalize (text : Text) :
    (normalize text).filter (!isBlank ·) = (trim text).filter (!isBlank ·) := by
  rw [← flatten_pieces, ← flatten_pieces, pieces_normalize]

theorem head?_filter {cs : Text} (h : cs.head?.any isBlank = false) :
    (cs.filter (!isBlank ·)).head? = cs.head? := by
  cases cs with
  | nil => rfl
  | cons c cs =>
    have hc : isBlank c = false := h
    rw [List.filter_cons_of_pos (by simp [hc])]
    rfl

theorem getLast?_filter {cs : Text} (h : cs.getLast?.any isBlank = false) :
    (cs.filter (!isBlank ·)).getLast? = cs.getLast? := by
  rw [← List.head?_reverse, ← List.filter_reverse, ← List.head?_reverse]
  exact head?_filter (by rwa [List.head?_reverse])

theorem head?_spell {ps : List Text} (h : ∀ p ∈ ps, IsPiece p) :
    (spell ps).head?.any isBlank = false := by
  cases ps with
  | nil => rfl
  | cons p ps =>
    rcases h p List.mem_cons_self with rfl | ⟨hne, hp⟩
    · rfl
    · obtain ⟨c, p, rfl⟩ := List.exists_cons_of_ne_nil hne
      exact (isBreak_eq_false_iff.1 (hp c List.mem_cons_self)).1

theorem not_isBlank_head?_normalize (text : Text) :
    (normalize text).head?.any isBlank = false := by
  rw [normalize_eq_spell]
  exact head?_spell fun _ => isPiece_of_mem_pieces

/-- The canonical spelling starts as the text does. -/
theorem head?_normalize (text : Text) : (normalize text).head? = (trim text).head? := by
  rw [← head?_filter (not_isBlank_head?_normalize text), filter_normalize,
    head?_filter (not_blank_of_not_space (head?_trim text))]

theorem trimStart_normalize (text : Text) : trimStart (normalize text) = normalize text :=
  dropWhile_eq_self (by rw [head?_normalize]; exact head?_trim text)

/-- Nothing but blanks stands behind what is left of the canonical spelling. -/
theorem trimEnd_normalize (text : Text) :
    ∃ blanks, normalize text = trimEnd (normalize text) ++ blanks ∧
      ∀ c ∈ blanks, isBlank c = true := by
  obtain ⟨blanks, hsplit, hblanks⟩ := exists_dropEndWhile isBlank (normalize text)
  have hnone : blanks.filter (!isBlank ·) = [] := by
    rw [List.filter_eq_nil_iff]
    exact fun c hc => by simp [hblanks c hc]
  have hfilter := filter_normalize text
  rw [hsplit, List.filter_append, hnone, List.append_nil] at hfilter
  have hlast : (dropEndWhile isBlank (normalize text)).getLast? = (trim text).getLast? := by
    rw [← getLast?_filter (getLast?_dropEndWhile _ _), hfilter,
      getLast?_filter (not_blank_of_not_space (getLast?_trim text))]
  have hkept : trimEnd (normalize text) = dropEndWhile isBlank (normalize text) := calc
    trimEnd (normalize text) = trimEnd (dropEndWhile isBlank (normalize text) ++ blanks) :=
      congrArg trimEnd hsplit
    _ = trimEnd (dropEndWhile isBlank (normalize text)) :=
      dropEndWhile_append_of_all _ fun c hc => isSpace_of_isBlank (hblanks c hc)
    _ = dropEndWhile isBlank (normalize text) :=
      dropEndWhile_eq_self (by rw [hlast]; exact getLast?_trim text)
  exact ⟨blanks, by rwa [hkept], hblanks⟩

/-- **The canonical spelling of a text has the pieces of the text**, trimmed or not. -/
theorem pieces_trim_normalize (text : Text) :
    pieces (trim (normalize text)) = pieces (trim text) := by
  obtain ⟨blanks, hsplit, hblanks⟩ := trimEnd_normalize text
  rw [trim, trimStart_normalize, ← pieces_append_blanks _ hblanks, ← hsplit, pieces_normalize]

end TemplateStyler.Directive
