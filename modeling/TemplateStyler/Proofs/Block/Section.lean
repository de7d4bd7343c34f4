import TemplateStyler.Block.Basic

/-!
# Sections of a document

A document is a list of sections followed by a rest. A section is some lines outside of blocks and
then one block; the rest has one delimiter line at most, which opens nothing. All that is said about
the blocks of a document follows from this form by induction on the sections.

* `exists_sectioned`: **every list of lines is made of sections and a rest.**
* `Sectioned.extractFrom_eq`: the blocks are those of the sections, counted from an index.
* `Role`: what a line of the document is to its blocks; `Sectioned.roles_eq` reads it off the
  sections.
* `outside`: the lines outside of all blocks.
-/

namespace TemplateStyler.Block

/-! ### Sections -/

/-- A block of a document, with the lines between it and the block before. -/
structure Section where
  before : List Text
  opening : Text
  content : List Text
  closing : Text

namespace Section

/-- All lines of a section, in order. -/
def lines (s : Section) : List Text := s.before ++ s.opening :: (s.content ++ [s.closing])

/-- The delimiter lines of a section are just the two of its block. -/
structure Valid (s : Section) : Prop where
  before : ∀ l ∈ s.before, isDelimiter l = false
  opening : isDelimiter s.opening = true
  content : ∀ l ∈ s.content, isDelimiter l = false
  closing : isDelimiter s.closing = true

/-- The block of a section that starts at an index. -/
def block (index : Nat) (s : Section) : Block :=
  ⟨index + s.before.length, index + s.before.length + 1 + s.content.length, s.content⟩

@[simp] theorem length_lines (s : Section) :
    s.lines.length = s.before.length + 1 + s.content.length + 1 := by
  simp only [lines, List.length_append, List.length_cons, List.length_nil]
  omega

@[simp] theorem text_block (index : Nat) (s : Section) :
    (s.block index).text = s.content.flatten := rfl

end Section

/-- Lines are made of sections and a rest with one delimiter line at most. -/
structure Sectioned (ls : List Text) (ss : List Section) (rest : List Text) : Prop where
  eq : ls = ss.flatMap Section.lines ++ rest
  valid : ∀ s ∈ ss, s.Valid
  rest : rest.countP isDelimiter ≤ 1

/-- The blocks of sections that follow one another from an index on. -/
def blocksFrom (index : Nat) : List Section → List Block
  | [] => []
  | s :: ss => s.block index :: blocksFrom (index + s.lines.length) ss

@[simp] theorem length_blocksFrom (index : Nat) (ss : List Section) :
    (blocksFrom index ss).length = ss.length := by
  induction ss generalizing index with
  | nil => rfl
  | cons s ss ih => rw [blocksFrom, List.length_cons, List.length_cons, ih]

theorem map_text_blocksFrom (index : Nat) (ss : List Section) :
    (blocksFrom index ss).map text = ss.map fun s => s.content.flatten := by
  induction ss generalizing index with
  | nil => rfl
  | cons s ss ih => rw [blocksFrom, List.map_cons, List.map_cons, ih, Section.text_block]

theorem le_start_of_mem_blocksFrom {index : Nat} {ss : List Section} {b : Block}
    (h : b ∈ blocksFrom index ss) : index ≤ b.start := by
  induction ss generalizing index with
  | nil => exact absurd h List.not_mem_nil
  | cons s ss ih =>
    rcases List.mem_cons.1 h with rfl | h
    · exact Nat.le_add_right _ _
    · exact Nat.le_trans (Nat.le_add_right _ _) (ih h)

/-! ### Every document is made of sections -/

/-- Lines have a first delimiter line or none. -/
theorem exists_delimiter (ls : List Text) :
    (∀ l ∈ ls, isDelimiter l = false) ∨
      ∃ a d b, ls = a ++ d :: b ∧ (∀ l ∈ a, isDelimiter l = false) ∧ isDelimiter d = true := by
  cases h : ls.find? isDelimiter with
  | none => exact Or.inl fun l hl => by simpa using List.find?_eq_none.1 h l hl
  | some d =>
    obtain ⟨hd, a, b, hls, ha⟩ := List.find?_eq_some_iff_append.1 h
    exact Or.inr ⟨a, d, b, hls, fun l hl => by simpa using ha l hl, hd⟩

/-- **Every list of lines is made of sections and a rest.** -/
theorem exists_sectioned (ls : List Text) : ∃ ss rest, Sectioned ls ss rest := by
  induction hn : ls.length using Nat.strongRecOn generalizing ls with
  | _ n ih =>
    -- the next two delimiter lines make a section; with fewer than two, all lines are the rest
    rcases exists_delimiter ls with hnone | ⟨a, d, b, rfl, ha, hd⟩
    · refine ⟨[], ls, rfl, by simp, ?_⟩
      rw [List.countP_eq_zero.2 fun l hl => by simp [hnone l hl]]
      exact Nat.zero_le 1
    · rcases exists_delimiter b with hnone | ⟨c, e, b', rfl, hc, he⟩
      · refine ⟨[], a ++ d :: b, rfl, by simp, ?_⟩
        have hfirst : a.countP isDelimiter = 0 :=
          List.countP_eq_zero.2 fun l hl => by simp [ha l hl]
        have hsecond : b.countP isDelimiter = 0 :=
          List.countP_eq_zero.2 fun l hl => by simp [hnone l hl]
        rw [List.countP_append, List.countP_cons_of_pos hd]
        omega
      · have hlt : b'.length < n := by
          simp only [← hn, List.length_append, List.length_cons]
          omega
        obtain ⟨ss, rest, hb', hvalid, hrest⟩ := ih _ hlt b' rfl
        refine ⟨⟨a, d, c, e⟩ :: ss, rest, ?_, ?_, hrest⟩
        · rw [List.flatMap_cons, Section.lines, hb']
          simp only [List.append_assoc, List.cons_append, List.nil_append]
        · intro s hs
          rcases List.mem_cons.1 hs with rfl | hs
          · exact ⟨ha, hd, hc, he⟩
          · exact hvalid s hs

/-! ### Its blocks -/

/-- Lines that are no delimiters belong to the block that is open, if one is. -/
theorem extractFrom_append {a : List Text} (ha : ∀ l ∈ a, isDelimiter l = false) (index : Nat)
    (opened : Option (Nat × List Text)) (b : List Text) :
    extractFrom index opened (a ++ b) =
      extractFrom (index + a.length) (opened.map fun p => (p.1, p.2 ++ a)) b := by
  induction a generalizing index opened with
  | nil => cases opened <;> simp
  | cons l a ih =>
    obtain ⟨hl, ha⟩ := List.forall_mem_cons.1 ha
    have hlength : index + 1 + a.length = index + (l :: a).length := by
      rw [List.length_cons]
      omega
    cases opened with
    | none => rw [List.cons_append, extractFrom, hl, if_neg (by simp), ih ha, hlength]; rfl
    | some p =>
      rw [List.cons_append, extractFrom, hl, if_neg (by simp), ih ha, hlength, Option.map_some,
        Option.map_some, List.append_assoc, List.singleton_append]

theorem extractFrom_section {s : Section} (hs : s.Valid) (index : Nat) (b : List Text) :
    extractFrom index none (s.lines ++ b) =
      s.block index :: extractFrom (index + s.lines.length) none b := by
  rw [Section.lines, List.append_assoc, extractFrom_append hs.before, Option.map_none,
    List.cons_append, extractFrom, if_pos hs.opening, List.append_assoc,
    extractFrom_append hs.content, Option.map_some, List.nil_append, List.singleton_append,
    extractFrom, if_pos hs.closing, ← Section.lines, Section.length_lines]
  simp only [Section.block, Nat.add_assoc]

theorem extractFrom_rest {rest : List Text} (h : rest.countP isDelimiter ≤ 1) (index : Nat) :
    extractFrom index none rest = [] := by
  rcases exists_delimiter rest with hnone | ⟨a, d, b, rfl, ha, hd⟩
  · rw [← List.append_nil rest, extractFrom_append hnone, extractFrom]
  · have hb : ∀ l ∈ b, isDelimiter l = false := by
      rw [List.countP_append, List.countP_cons_of_pos hd] at h
      have hzero : b.countP isDelimiter = 0 := by omega
      exact fun l hl => by simpa using List.countP_eq_zero.1 hzero l hl
    rw [extractFrom_append ha, Option.map_none, extractFrom, if_pos hd, ← List.append_nil b,
      extractFrom_append hb, extractFrom]

/-- **The blocks of a document are those of its sections.** -/
theorem Sectioned.extractFrom_eq {ls : List Text} {ss : List Section} {rest : List Text}
    (h : Sectioned ls ss rest) (index : Nat) : extractFrom index none ls = blocksFrom index ss := by
  obtain ⟨rfl, hss, hrest⟩ := h
  induction ss generalizing index with
  | nil => exact extractFrom_rest hrest index
  | cons s ss ih =>
    rw [List.flatMap_cons, List.append_assoc, extractFrom_section (hss s (by simp)),
      ih _ fun s' hs' => hss s' (by simp [hs']), blocksFrom]

/-! ### What a line is to the blocks -/

/-- What a line of a document is to its blocks. -/
inductive Role where
  /-- The line is in no block. -/
  | outer
  /-- The line opens or closes a block. -/
  | delimiter
  /-- The line stands between the delimiters of a block. -/
  | content
  deriving DecidableEq, Repr

/-- The role of the line at an index. -/
def role (bs : List Block) (index : Nat) : Role :=
  match bs.find? fun b => b.start ≤ index && index ≤ b.stop with
  | some b => if index = b.start ∨ index = b.stop then .delimiter else .content
  | none => .outer

/-- The lines of a document with their roles. -/
def roles (document : Text) : List (Role × Text) :=
  (Text.lines document).mapIdx fun i l => (role (extract document) i, l)

/-- The lines of a document outside of its blocks, in order. A delimiter line that opens nothing is
one of them. -/
def outside (document : Text) : List Text :=
  ((roles document).filter fun p => p.1 = .outer).map Prod.snd

theorem role_eq_outer {bs : List Block} {index : Nat} (h : ∀ b ∈ bs, index < b.start) :
    role bs index = .outer := by
  have hnone : bs.find? (fun b => b.start ≤ index && index ≤ b.stop) = none :=
    List.find?_eq_none.2 fun b hb => by
      have := h b hb
      simp only [Bool.and_eq_true, decide_eq_true_eq]
      omega
  rw [role, hnone]

theorem role_cons_of_mem {b : Block} {index : Nat} (h : b.start ≤ index ∧ index ≤ b.stop)
    (bs : List Block) :
    role (b :: bs) index =
      if index = b.start ∨ index = b.stop then .delimiter else .content := by
  rw [role, List.find?_cons_of_pos (by simpa using h)]

theorem role_cons_of_not_mem {b : Block} {index : Nat} (h : index < b.start ∨ b.stop < index)
    (bs : List Block) : role (b :: bs) index = role bs index := by
  rw [role, role, List.find?_cons_of_neg]
  simp only [Bool.and_eq_true, decide_eq_true_eq]
  omega

/-- The lines of a section with their roles. -/
def Section.roles (s : Section) : List (Role × Text) :=
  s.before.map (Prod.mk .outer)
    ++ (.delimiter, s.opening) :: (s.content.map (Prod.mk .content) ++ [(.delimiter, s.closing)])

/-- Lines that all have one role. -/
theorem mapIdx_role {ls : List Text} {f : Nat → Role} {r : Role}
    (h : ∀ i < ls.length, f i = r) : (ls.mapIdx fun i l => (f i, l)) = ls.map (Prod.mk r) := by
  refine List.ext_getElem (by simp) fun i hi _ => ?_
  rw [List.getElem_mapIdx, List.getElem_map, h i (by simpa using hi)]

theorem mapIdx_role_section (s : Section) (index : Nat) {bs : List Block}
    (hbs : ∀ b ∈ bs, index + s.lines.length ≤ b.start) :
    (s.lines.mapIdx fun i l => (role (s.block index :: bs) (index + i), l)) = s.roles := by
  have hbefore : ∀ i < s.before.length, role (s.block index :: bs) (index + i) = .outer := by
    intro i hi
    refine role_eq_outer fun b hb => ?_
    rcases List.mem_cons.1 hb with rfl | hb
    · exact Nat.add_lt_add_left hi index
    · have := hbs b hb
      rw [Section.length_lines] at this
      omega
  have hinside : ∀ i, s.before.length ≤ i → i ≤ s.before.length + 1 + s.content.length →
      role (s.block index :: bs) (index + i) =
        if i = s.before.length ∨ i = s.before.length + 1 + s.content.length then .delimiter
        else .content := by
    intro i hle hle'
    rw [role_cons_of_mem (by simp only [Section.block]; omega)]
    simp only [Section.block, Nat.add_assoc, Nat.add_left_cancel_iff]
  have hcontent : ∀ i < s.content.length,
      role (s.block index :: bs) (index + (i + 1 + s.before.length)) = .content := by
    intro i hi
    rw [hinside _ (by omega) (by omega), if_neg (by omega)]
  rw [Section.lines, Section.roles, List.mapIdx_append, mapIdx_role hbefore, List.mapIdx_cons,
    List.mapIdx_append, mapIdx_role hcontent, List.mapIdx_singleton,
    hinside _ (by omega) (by omega), hinside _ (by omega) (by omega), if_pos (Or.inl (by omega)),
    if_pos (Or.inr (by omega))]

theorem mapIdx_role_sections (ss : List Section) (rest : List Text) (index : Nat) :
    ((ss.flatMap Section.lines ++ rest).mapIdx fun i l =>
        (role (blocksFrom index ss) (index + i), l)) =
      ss.flatMap Section.roles ++ rest.map (Prod.mk .outer) := by
  induction ss generalizing index with
  | nil => exact mapIdx_role fun _ _ => rfl
  | cons s ss ih =>
    have hbehind : ∀ i, role (s.block index :: blocksFrom (index + s.lines.length) ss)
        (index + (i + s.lines.length)) =
          role (blocksFrom (index + s.lines.length) ss) (index + s.lines.length + i) := by
      intro i
      rw [role_cons_of_not_mem (Or.inr ?_)]
      · congr 1
        omega
      · simp only [Section.block, Section.length_lines]
        omega
    rw [List.flatMap_cons, List.append_assoc, List.mapIdx_append, blocksFrom,
      mapIdx_role_section s index fun _ => le_start_of_mem_blocksFrom, List.flatMap_cons,
      List.append_assoc, ← ih (index + s.lines.length)]
    simp only [hbehind]

/-- **The roles of the lines of a document, section by section.** -/
theorem Sectioned.roles_eq {document : Text} {ss : List Section} {rest : List Text}
    (h : Sectioned (Text.lines document) ss rest) :
    roles document = ss.flatMap Section.roles ++ rest.map (Prod.mk .outer) := by
  rw [roles, extract, h.extractFrom_eq, h.eq, ← mapIdx_role_sections ss rest 0]
  simp only [Nat.zero_add]

theorem filter_outer (role : Role) (ls : List Text) :
    ((ls.map (Prod.mk role)).filter fun p => p.1 = .outer).map Prod.snd =
      if role = .outer then ls else [] := by
  induction ls with
  | nil => simp
  | cons l ls ih => cases role <;> simp_all

theorem Section.filter_roles (s : Section) :
    (s.roles.filter fun p => p.1 = .outer).map Prod.snd = s.before := by
  rw [Section.roles, List.filter_append, List.map_append, filter_outer, if_pos rfl,
    List.filter_cons_of_neg (by simp), List.filter_append, List.map_append, filter_outer,
    if_neg (by decide), List.filter_cons_of_neg (by simp)]
  simp

theorem Sectioned.outside_eq {document : Text} {ss : List Section} {rest : List Text}
    (h : Sectioned (Text.lines document) ss rest) :
    outside document = ss.flatMap Section.before ++ rest := by
  rw [outside, h.roles_eq, List.filter_append, List.map_append, filter_outer, if_pos rfl,
    List.filter_flatMap, List.map_flatMap]
  simp only [Section.filter_roles]

end TemplateStyler.Block
