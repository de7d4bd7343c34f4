import TemplateStyler.Proofs.Block.Section
import TemplateStyler.Proofs.Text.Lines

/-!
# Rewritten documents

A document is rewritten section by section: the lines before a block stay, its delimiters get new
dots, and the new content comes between them. Nothing of it runs into a line of its surroundings, as
`stored` ends with a newline.

* `stored`: what stands between the delimiters when a content has been written there.
* `lines_rewriteAll`: the lines of the rewritten document, section by section.
* `extract_rewriteAll`: **the blocks of the rewritten document hold the contents that it was given,
  and the lines outside of blocks are the ones it had.** No content may bring delimiter lines.
-/

namespace TemplateStyler.Block

open Text

/-! ### A content between delimiters -/

/-- The text between the delimiters when a content has been written there. A newline at its start
ends the opening delimiter line, and the last line gets a newline where it has none. -/
def stored (content : Text) : Text :=
  (if content.head? = some '\n' then content.tail else content)
    ++ (if content.isEmpty || content.getLast? = some '\n' then [] else ['\n'])

/-- The dots of a delimiter line. -/
def delimiter (dots : Nat) : Text := List.replicate (max dots fewestDots) '.'

theorem render_eq (delimiter content closingEnd : Text) :
    render delimiter content closingEnd =
      delimiter ++ ['\n'] ++ stored content ++ (delimiter ++ closingEnd) := by
  cases content with
  | nil => simp [render, stored]
  | cons c cs =>
    by_cases hc : c = '\n'
    · simp [render, stored, hc]
    · simp [render, stored, hc]

/-- The text with a newline at its end, unless it is empty. -/
def ended (a : Text) : Text := a ++ if a.isEmpty || a.getLast? = some '\n' then [] else ['\n']

theorem stored_eq (content : Text) :
    stored content = ended (if content.head? = some '\n' then content.tail else content) := by
  by_cases hhead : content.head? = some '\n'
  · obtain ⟨cs, rfl⟩ := List.head?_eq_some_iff.1 hhead
    cases cs with
    | nil => rfl
    | cons c cs => simp [stored, ended]
  · rw [stored, ended, if_neg hhead]

theorem wholeLines_ended (a : Text) : WholeLines (ended a) := by
  rw [ended]
  split
  · next h =>
    rw [Bool.or_eq_true, List.isEmpty_iff, decide_eq_true_eq] at h
    rw [List.append_nil]
    exact wholeLines_iff.2 h
  · exact wholeLines_snoc a

/-- The lines of an ended text are its lines, up to white space. -/
theorem exists_mem_lines_of_ended {a l : Text} (h : l ∈ Text.lines (ended a)) :
    ∃ l' ∈ Text.lines a, trim l = trim l' := by
  rw [ended] at h
  split at h
  · exact ⟨l, by rwa [List.append_nil] at h, rfl⟩
  · next hopen =>
    rw [Bool.or_eq_true, List.isEmpty_iff, decide_eq_true_eq, not_or] at hopen
    obtain ⟨x, u, hx, hx'⟩ := lines_append_newline hopen.1 hopen.2
    rw [hx', List.mem_append, List.mem_singleton] at h
    rcases h with h | rfl
    · exact ⟨l, by simp [hx, h], rfl⟩
    · refine ⟨u, by simp [hx], ?_⟩
      exact trim_append (a := []) (by simp) (List.forall_mem_singleton.2 (by decide))

theorem exists_mem_lines_of_stored {content l : Text} (h : l ∈ Text.lines (stored content)) :
    ∃ l' ∈ Text.lines content, trim l = trim l' := by
  rw [stored_eq] at h
  obtain ⟨l', hl', htrim⟩ := exists_mem_lines_of_ended h
  refine ⟨l', ?_, htrim⟩
  split at hl'
  · next hhead =>
    obtain ⟨cs, rfl⟩ := List.head?_eq_some_iff.1 hhead
    rw [Text.lines, if_pos rfl]
    exact List.mem_cons_of_mem _ hl'
  · exact hl'

theorem newline_not_mem_delimiter (dots : Nat) : '\n' ∉ delimiter dots := by
  simp [delimiter]

theorem delimiter_ne_nil (dots : Nat) : delimiter dots ≠ [] := by
  rw [delimiter, ne_eq, List.replicate_eq_nil_iff, fewestDots]
  omega

theorem isDelimiter_delimiter (dots : Nat) {a : Text} (ha : ∀ c ∈ a, isLineEnd c = true) :
    isDelimiter (delimiter dots ++ a) = true := by
  have htrim : trim (delimiter dots ++ a) = delimiter dots := by
    have hspace := trim_append (a := []) (b := delimiter dots) (by simp) fun c hc =>
      isSpace_of_isLineEnd (ha c hc)
    rw [List.nil_append] at hspace
    refine hspace.trans (trim_eq_self fun c hc => ?_)
    rw [List.eq_of_mem_replicate hc]
    decide
  rw [isDelimiter, htrim]
  simp only [Bool.and_eq_true, decide_eq_true_eq, List.all_eq_true]
  refine ⟨?_, fun c hc => by rw [List.eq_of_mem_replicate hc]; rfl⟩
  rw [delimiter, List.length_replicate]
  exact Nat.le_max_right _ _

theorem isDelimiter_congr {a b : Text} (h : trim a = trim b) : isDelimiter a = isDelimiter b := by
  rw [isDelimiter, isDelimiter, h]

/-! ### Rewritten sections -/

namespace Section

/-- The section with another content and delimiters of a number of dots. -/
def rewritten (dots : Nat) (s : Section) (content : Text) : Section where
  before := s.before
  opening := delimiter dots ++ ['\n']
  content := Text.lines (stored content)
  closing := delimiter dots ++ ending s.closing

theorem lines_append (s : Section) (more : List Text) :
    s.lines ++ more = s.before ++ s.opening :: (s.content ++ s.closing :: more) := by
  simp only [lines, List.append_assoc, List.cons_append, List.nil_append]

theorem flatten_lines_rewritten (dots : Nat) (s : Section) (content : Text) :
    (s.rewritten dots content).lines.flatten =
      s.before.flatten ++ render (delimiter dots) content (ending s.closing) := by
  rw [render_eq, lines, rewritten]
  simp only [List.flatten_append, List.flatten_cons, List.flatten_nil, flatten_lines,
    List.append_nil, List.append_assoc]

theorem Valid.rewritten {s : Section} (h : s.Valid) (dots : Nat) {content : Text}
    (hcontent : ∀ l ∈ Text.lines content, isDelimiter l = false) :
    (s.rewritten dots content).Valid where
  before := h.before
  opening := isDelimiter_delimiter dots (List.forall_mem_singleton.2 (by decide))
  content l hl := by
    obtain ⟨l', hl', htrim⟩ := exists_mem_lines_of_stored hl
    rw [isDelimiter_congr htrim]
    exact hcontent l' hl'
  closing := isDelimiter_delimiter dots fun _ hc => isLineEnd_of_mem_ending hc

/-- A rewritten section is made of lines, and so is what follows it. -/
theorem lined_rewritten {s : Section} {more more' : List Text} (h : Lined (s.lines ++ more))
    (hmore : Lined more') (hne : more' ≠ [] → more ≠ []) (dots : Nat) (content : Text) :
    Lined ((s.rewritten dots content).lines ++ more') := by
  rw [lines_append] at h ⊢
  obtain ⟨hbefore, hrest, hwhole⟩ := lined_append.1 h
  obtain ⟨hclosing, hended, -⟩ := (lined_append.1 hrest.2.2).2.1
  have hopening : IsLine (delimiter dots ++ ['\n']) :=
    ⟨by simp, by rw [List.dropLast_concat]; exact newline_not_mem_delimiter dots⟩
  have hclosing' : IsLine (delimiter dots ++ ending s.closing) :=
    hclosing.append_ending (newline_not_mem_delimiter dots) (by simp [delimiter_ne_nil])
  have hstored : ∀ l ∈ Text.lines (stored content), WholeLines l :=
    (lined_lines _).wholeLines (by rw [flatten_lines]; exact stored_eq content ▸ wholeLines_ended _)
  refine lined_append.2
    ⟨hbefore, ⟨hopening, fun _ => wholeLines_snoc _, ?_⟩, fun _ => hwhole (by simp)⟩
  refine lined_append.2 ⟨lined_lines _, ⟨hclosing', fun h' => ?_, hmore⟩, fun _ => hstored⟩
  exact (hended (hne h')).append_ending hclosing.1 _

end Section

/-! ### Rewritten documents -/

/-- Sections with other contents. -/
def rewrittenAll (dots : Nat) (ss : List Section) (contents : List Text) : List Section :=
  ss.zipWith (Section.rewritten dots) contents

section
variable {ss : List Section} {contents : List Text} {dots : Nat}

theorem content_rewrittenAll (hlen : contents.length = ss.length) :
    (rewrittenAll dots ss contents).map (fun s => s.content.flatten) = contents.map stored := by
  induction ss generalizing contents with
  | nil => rw [List.length_eq_zero_iff.1 hlen]; rfl
  | cons s ss ih =>
    obtain ⟨content, contents, rfl⟩ := List.exists_cons_of_length_eq_add_one hlen
    have hfirst : (s.rewritten dots content).content.flatten = stored content := flatten_lines _
    rw [rewrittenAll, List.zipWith_cons_cons, List.map_cons, hfirst, List.map_cons,
      ← ih (Nat.succ.inj hlen), rewrittenAll]

theorem before_rewrittenAll (hlen : contents.length = ss.length) :
    (rewrittenAll dots ss contents).flatMap Section.before = ss.flatMap Section.before := by
  induction ss generalizing contents with
  | nil => rfl
  | cons s ss ih =>
    obtain ⟨content, contents, rfl⟩ := List.exists_cons_of_length_eq_add_one hlen
    rw [rewrittenAll, List.zipWith_cons_cons, List.flatMap_cons, List.flatMap_cons,
      ← ih (Nat.succ.inj hlen)]
    rfl

theorem valid_of_mem_rewrittenAll (hss : ∀ s ∈ ss, s.Valid)
    (hcontents : ∀ c ∈ contents, ∀ l ∈ Text.lines c, isDelimiter l = false) {s : Section}
    (hs : s ∈ rewrittenAll dots ss contents) : s.Valid := by
  rw [rewrittenAll, ← List.map_uncurry_zip_eq_zipWith] at hs
  obtain ⟨⟨s', content⟩, hmem, rfl⟩ := List.mem_map.1 hs
  obtain ⟨hs', hcontent⟩ := List.of_mem_zip hmem
  exact (hss s' hs').rewritten dots (hcontents content hcontent)

theorem lined_rewrittenAll {rest : List Text} (h : Lined (ss.flatMap Section.lines ++ rest))
    (hlen : contents.length = ss.length) :
    Lined ((rewrittenAll dots ss contents).flatMap Section.lines ++ rest) := by
  induction ss generalizing contents with
  | nil => exact h
  | cons s ss ih =>
    obtain ⟨content, contents, rfl⟩ := List.exists_cons_of_length_eq_add_one hlen
    rw [List.flatMap_cons, List.append_assoc] at h
    have hnext := ih (lined_append.1 h).2.1 (Nat.succ.inj hlen)
    rw [rewrittenAll, List.zipWith_cons_cons, List.flatMap_cons, List.append_assoc]
    refine Section.lined_rewritten h hnext (fun hne => ?_) dots content
    cases ss with
    | nil => exact hne
    | cons s' ss => simp [Section.lines]

theorem renderFrom_sections (rest : List Text) (hlen : contents.length = ss.length)
    (front : List Text) :
    renderFrom (front ++ (ss.flatMap Section.lines ++ rest)) (delimiter dots) front.length
        ((blocksFrom front.length ss).zip contents) =
      ((rewrittenAll dots ss contents).flatMap Section.lines ++ rest).flatten := by
  induction ss generalizing front contents with
  | nil => simp [blocksFrom, renderFrom, rewrittenAll]
  | cons s ss ih =>
    obtain ⟨content, contents, rfl⟩ := List.exists_cons_of_length_eq_add_one hlen
    -- the three places that the step reads in the lines of the whole document
    obtain ⟨all, hall⟩ : ∃ all, all = front ++ ((s :: ss).flatMap Section.lines ++ rest) :=
      ⟨_, rfl⟩
    rw [← hall]
    rw [List.flatMap_cons, List.append_assoc] at hall
    have hbefore : (all.take (front.length + s.before.length)).drop front.length = s.before := by
      rw [hall, Section.lines_append, ← List.append_assoc, ← List.length_append, List.take_left,
        List.drop_left]
    have hclosing :
        all.getD (front.length + s.before.length + 1 + s.content.length) [] = s.closing := by
      have hsplit : all = (front ++ s.before ++ s.opening :: s.content) ++ s.closing ::
          (ss.flatMap Section.lines ++ rest) := by
        rw [hall, Section.lines_append]
        simp only [List.append_assoc, List.cons_append]
      have hsize : front.length + s.before.length + 1 + s.content.length =
          (front ++ s.before ++ s.opening :: s.content).length := by
        simp only [List.length_append, List.length_cons]
        omega
      rw [hsize, hsplit, List.getD_eq_getElem?_getD,
        List.getElem?_append_right (Nat.le_refl _), Nat.sub_self]
      rfl
    have hnext : front.length + s.before.length + 1 + s.content.length + 1 =
        (front ++ s.lines).length := by
      rw [List.length_append, Section.length_lines]
      omega
    rw [blocksFrom, List.zip_cons_cons, renderFrom]
    simp only [Section.block]
    rw [hbefore, hclosing, hnext, hall, ← List.append_assoc, ← List.length_append,
      ih (Nat.succ.inj hlen)]
    simp only [rewrittenAll, List.zipWith_cons_cons, List.flatMap_cons, List.flatten_append,
      Section.flatten_lines_rewritten, List.append_assoc]

/-- **A document is rewritten section by section**, and its lines stay apart. -/
theorem lines_rewriteAll {document : Text} {rest : List Text}
    (h : Sectioned (Text.lines document) ss rest) (hlen : contents.length = ss.length) :
    Text.lines (rewriteAll document dots contents) =
      (rewrittenAll dots ss contents).flatMap Section.lines ++ rest := by
  have hlined := h.eq ▸ lined_lines document
  have htext : rewriteAll document dots contents =
      ((rewrittenAll dots ss contents).flatMap Section.lines ++ rest).flatten := by
    rw [rewriteAll, extract, h.extractFrom_eq, h.eq]
    exact renderFrom_sections rest hlen []
  rw [htext, lines_flatten (lined_rewrittenAll hlined hlen)]

theorem Sectioned.rewriteAll {document : Text} {rest : List Text}
    (h : Sectioned (Text.lines document) ss rest) (hlen : contents.length = ss.length)
    (hcontents : ∀ c ∈ contents, ∀ l ∈ Text.lines c, isDelimiter l = false) :
    Sectioned (Text.lines (rewriteAll document dots contents)) (rewrittenAll dots ss contents)
      rest where
  eq := lines_rewriteAll h hlen
  valid _ hs := valid_of_mem_rewrittenAll h.valid hcontents hs
  rest := h.rest

end

/-- **A rewritten document has the blocks that it was given, and all else as it was.** Where no
content brings a delimiter line, there are as many blocks as before, they hold the contents in order
as `stored` has them, and the lines outside of blocks are the same. -/
theorem extract_rewriteAll {document : Text} (dots : Nat) {contents : List Text}
    (hlen : contents.length = (extract document).length)
    (hcontents : ∀ c ∈ contents, ∀ l ∈ Text.lines c, isDelimiter l = false) :
    (extract (rewriteAll document dots contents)).length = (extract document).length ∧
    (extract (rewriteAll document dots contents)).map text = contents.map stored ∧
    outside (rewriteAll document dots contents) = outside document := by
  obtain ⟨ss, rest, h⟩ := exists_sectioned (Text.lines document)
  have hextract : extract document = blocksFrom 0 ss := h.extractFrom_eq 0
  rw [hextract, length_blocksFrom] at hlen
  have h' : Sectioned (Text.lines (rewriteAll document dots contents))
      (rewrittenAll dots ss contents) rest := h.rewriteAll hlen hcontents
  have htext : (extract (rewriteAll document dots contents)).map text = contents.map stored := by
    rw [extract, h'.extractFrom_eq, map_text_blocksFrom, content_rewrittenAll hlen]
  refine ⟨?_, htext, ?_⟩
  · have hcount := congrArg List.length htext
    rw [List.length_map, List.length_map] at hcount
    rw [hcount, hlen, hextract, length_blocksFrom]
  · rw [h'.outside_eq, h.outside_eq, before_rewrittenAll hlen]

/-- A document with two blocks, one of them empty, and a delimiter line that is left over. -/
theorem extract_rewriteAll_left_over :
    ∃ (document : Text) (contents : List Text),
      document = "x\n ....\na\n.....\r\n....\n....\ny\n.....\nz".toList ∧
      contents = ["\nb\r".toList, "\n\nc\n".toList] ∧
      contents.length = (extract document).length ∧
      (∀ c ∈ contents, ∀ l ∈ Text.lines c, isDelimiter l = false) ∧
      (extract (rewriteAll document 4 contents)).map text = ["b\r\n".toList, "\nc\n".toList] ∧
      outside (rewriteAll document 4 contents) =
        ["x\n".toList, "y\n".toList, ".....\n".toList, ['z']] := by
  have hlen : ["\nb\r".toList, "\n\nc\n".toList].length = (extract
      "x\n ....\na\n.....\r\n....\n....\ny\n.....\nz".toList).length := by decide
  have hcontents : ∀ c ∈ ["\nb\r".toList, "\n\nc\n".toList], ∀ l ∈ Text.lines c,
      isDelimiter l = false := by decide
  obtain ⟨-, htext, houtside⟩ := extract_rewriteAll 4 hlen hcontents
  exact ⟨_, _, rfl, rfl, hlen, hcontents, htext.trans (by decide), houtside.trans (by decide)⟩

end TemplateStyler.Block
