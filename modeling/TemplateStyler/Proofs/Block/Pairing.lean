import Mathlib.Data.List.Basic
import TemplateStyler.Format
import TemplateStyler.Proofs.Block.Place

/-!
# Blocks as pairs of delimiter lines

The blocks of a document are found in one pass that keeps the open block. Seen from outside, the
delimiter lines pair up: the first with the second, the third with the fourth, and so on, and a last
one without a partner makes no block. A rewriting calls its function on these blocks, one after the
other.

* `delimiters`: the indices of the delimiter lines.
* `getElem?_extract_eq_some_iff`: the block at an index stands between the two delimiter lines at
  twice the index and behind it.
* `rewriteM`: a rewriting whose function does something, such as calling a formatter. It is
  `Block.rewrite` where the function does nothing (`rewriteM_pure`), and a formatter works by it
  (`Format.document_eq_run`).
* `run_rewriteM_logged`: **such a rewriting calls its function once on each block, in order.**
* `extract_pairs`: **the blocks are the pairs of delimiter lines, and a rewriting calls its function
  on just these.**
-/

namespace TemplateStyler

namespace Block

/-- The indices of the delimiter lines of a document, in order. -/
def delimiters (document : Text) : List Nat := (Text.lines document).findIdxs isDelimiter

/-! ### Pairs of delimiter lines -/

section Pairs

variable {α β : Type} {f g : α → β} {as : List α}

/-- Two entries for each item of a list stand at twice its index and behind it. -/
theorem getElem?_pairs {a : α} {k : Nat} (h : as[k]? = some a) (rest : List β) :
    (as.flatMap (fun a => [f a, g a]) ++ rest)[2 * k]? = some (f a) ∧
      (as.flatMap (fun a => [f a, g a]) ++ rest)[2 * k + 1]? = some (g a) := by
  induction as generalizing k with
  | nil => cases h
  | cons a' as ih =>
    cases k with
    | zero =>
      cases h
      exact ⟨rfl, rfl⟩
    | succ k => exact ih h

theorem length_pairs : (as.flatMap fun a => [f a, g a]).length = 2 * as.length := by
  induction as with
  | nil => rfl
  | cons a as ih =>
    rw [List.flatMap_cons, List.length_append, ih, List.length_cons, List.length_cons,
      List.length_cons, List.length_nil]
    omega

end Pairs

theorem findIdxs_of_none {ls : List Text} (h : ∀ l ∈ ls, isDelimiter l = false) (index : Nat) :
    ls.findIdxs isDelimiter index = [] := List.findIdxs_eq_nil_iff.2 h

/-- The delimiter lines of a section are those of its block. -/
theorem Section.Valid.findIdxs_lines {s : Section} (h : s.Valid) (index : Nat) :
    s.lines.findIdxs isDelimiter index = [(s.block index).start, (s.block index).stop] := by
  rw [Section.lines, List.findIdxs_append, findIdxs_of_none h.before, List.findIdxs_cons,
    if_pos h.opening, List.findIdxs_append, findIdxs_of_none h.content, List.findIdxs_singleton,
    if_pos h.closing]
  rfl

/-- The delimiter lines of a document are those of its blocks and those of the rest. -/
theorem Sectioned.findIdxs_eq {ls : List Text} {ss : List Section} {rest : List Text}
    (h : Sectioned ls ss rest) (index : Nat) :
    ∃ leftOver, ls.findIdxs isDelimiter index =
        (blocksFrom index ss).flatMap (fun b => [b.start, b.stop]) ++ leftOver ∧
      leftOver.length ≤ 1 := by
  obtain ⟨rfl, hss, hrest⟩ := h
  induction ss generalizing index with
  | nil => exact ⟨rest.findIdxs isDelimiter index, rfl, by rwa [List.length_findIdxs]⟩
  | cons s ss ih =>
    obtain ⟨hs, hss⟩ := List.forall_mem_cons.1 hss
    obtain ⟨leftOver, heq, hle⟩ := ih (index + s.lines.length) hss
    refine ⟨leftOver, ?_, hle⟩
    rw [List.flatMap_cons, List.append_assoc, List.findIdxs_append, hs.findIdxs_lines, heq,
      blocksFrom, List.flatMap_cons, List.append_assoc]

theorem exists_delimiters_eq (document : Text) :
    ∃ leftOver, delimiters document =
        (extract document).flatMap (fun b => [b.start, b.stop]) ++ leftOver ∧
      leftOver.length ≤ 1 := by
  obtain ⟨ss, rest, hsections⟩ := exists_sectioned (Text.lines document)
  rw [extract, hsections.extractFrom_eq]
  exact hsections.findIdxs_eq 0

/-- A delimiter line that is left over makes no block. -/
theorem length_extract (document : Text) :
    (extract document).length = (delimiters document).length / 2 := by
  obtain ⟨leftOver, heq, hle⟩ := exists_delimiters_eq document
  rw [heq, List.length_append, length_pairs]
  omega

/-- The lines of a block are those of the document between its delimiter lines. -/
theorem lines_of_mem_extract {document : Text} {b : Block} (h : b ∈ extract document) :
    b.lines = ((Text.lines document).take b.stop).drop (b.start + 1) := by
  obtain ⟨before, opening, closing, behind, hlines, hstart, hstop⟩ := exists_of_mem_extract h
  have hsplit : Text.lines document = (before ++ [opening]) ++ (b.lines ++ closing :: behind) := by
    rw [hlines, List.append_assoc, List.singleton_append]
  have hfront : (before ++ [opening]).length = b.start + 1 := by
    rw [List.length_append, List.length_singleton, hstart]
  rw [List.drop_take, hsplit, ← hfront, List.drop_left, hfront, hstop, firstLine,
    Nat.add_sub_cancel_left, List.take_left]

/-- **The blocks are the pairs of delimiter lines**, in order. -/
theorem getElem?_extract_eq_some_iff (document : Text) (k : Nat) (b : Block) :
    (extract document)[k]? = some b ↔
      ∃ i j, (delimiters document)[2 * k]? = some i ∧ (delimiters document)[2 * k + 1]? = some j ∧
        b = ⟨i, j, ((Text.lines document).take j).drop (i + 1)⟩ := by
  obtain ⟨leftOver, heq, hle⟩ := exists_delimiters_eq document
  have hpair : ∀ b, (extract document)[k]? = some b →
      (delimiters document)[2 * k]? = some b.start ∧
        (delimiters document)[2 * k + 1]? = some b.stop ∧
        b = ⟨b.start, b.stop, ((Text.lines document).take b.stop).drop (b.start + 1)⟩ := by
    intro b hb
    obtain ⟨hstart, hstop⟩ := getElem?_pairs (f := start) (g := stop) hb leftOver
    refine ⟨heq ▸ hstart, heq ▸ hstop, ?_⟩
    rw [← lines_of_mem_extract (List.mem_of_getElem? hb)]
  constructor
  · exact fun h => ⟨b.start, b.stop, hpair b h⟩
  · rintro ⟨i, j, hi, hj, rfl⟩
    cases hb : (extract document)[k]? with
    | none =>
      -- there are two delimiter lines for each block and one more at most
      have hlength : (delimiters document).length ≤ 2 * k + 1 := by
        rw [heq, List.length_append, length_pairs]
        have := List.getElem?_eq_none_iff.1 hb
        omega
      rw [List.getElem?_eq_none hlength] at hj
      cases hj
    | some b =>
      obtain ⟨hstart, hstop, hblock⟩ := hpair b hb
      cases hstart.symm.trans hi
      cases hstop.symm.trans hj
      rw [← hblock]

/-! ### Calls of a rewriting -/

/-- The lines from an index on, with blocks replaced by new contents. The content of a block is
asked for when all before it is written. -/
def renderM {m : Type → Type} [Monad m] (f : Block → m Text) (lines : List Text) (delimiter : Text)
    (index : Nat) : List Block → m Text
  | [] => pure (lines.drop index).flatten
  | b :: bs => do
    let content ← f b
    let rest ← renderM f lines delimiter (b.stop + 1) bs
    pure (((lines.take b.start).drop index).flatten
      ++ render delimiter content (Text.ending (lines.getD b.stop [])) ++ rest)

/-- The document with the content of each block rewritten, one after the other, by a function that
does something at each call. -/
def rewriteM {m : Type → Type} [Monad m] (document : Text) (dots : Nat) (f : Block → m Text) :
    m Text :=
  renderM f (Text.lines document) (List.replicate (max dots fewestDots) '.') 0 (extract document)

/-- The function with a list of the blocks on which it was called. -/
def logged {m : Type → Type} [Monad m] (f : Block → m Text) (b : Block) :
    StateT (List Block) m Text := do
  modify (· ++ [b])
  f b

section Calls

variable {m : Type → Type} [Monad m] [LawfulMonad m] (f : Block → m Text)

theorem renderM_eq (lines : List Text) (delimiter : Text) (index : Nat) (bs : List Block) :
    renderM f lines delimiter index bs =
      (fun contents => renderFrom lines delimiter index (bs.zip contents)) <$> bs.mapM f := by
  induction bs generalizing index with
  | nil => rw [renderM, List.mapM_nil, map_pure, List.zip_nil_left, renderFrom]
  | cons b bs ih =>
    rw [renderM, List.mapM_cons, map_bind]
    refine bind_congr fun content => ?_
    rw [ih, map_bind, bind_map_left]
    refine bind_congr fun contents => ?_
    rw [map_pure, List.zip_cons_cons, renderFrom]

/-- A rewriting calls its function on all blocks and puts the new contents in their places. -/
theorem rewriteM_eq (document : Text) (dots : Nat) :
    rewriteM document dots f = rewriteAll document dots <$> (extract document).mapM f :=
  renderM_eq f _ _ _ _

/-- Where the function does nothing else, this is the rewriting of blocks. -/
theorem rewriteM_pure (document : Text) (dots : Nat) (f : Block → Text) :
    rewriteM document dots (fun b => (pure (f b) : m Text)) = pure (rewrite document dots f) := by
  rw [rewriteM_eq, List.mapM_pure, map_pure, rewrite]

theorem run_mapM_logged (bs calls : List Block) :
    (bs.mapM (logged f)).run calls = (fun contents => (contents, calls ++ bs)) <$> bs.mapM f := by
  induction bs generalizing calls with
  | nil => rw [List.mapM_nil, List.mapM_nil, StateT.run_pure, map_pure, List.append_nil]
  | cons b bs ih =>
    rw [List.mapM_cons, List.mapM_cons, StateT.run_bind, logged]
    simp [ih]

/-- **A rewriting calls its function once on each block, in order**, and a list of the calls changes
nothing else. -/
theorem run_rewriteM_logged (document : Text) (dots : Nat) (calls : List Block) :
    (rewriteM document dots (logged f)).run calls =
      (fun text => (text, calls ++ extract document)) <$> rewriteM document dots f := by
  rw [rewriteM_eq, rewriteM_eq, StateT.run_map, run_mapM_logged, Functor.map_map, Functor.map_map]

end Calls

/-- **The blocks of a document are the pairs of its delimiter lines.** The block at an index stands
between the delimiter lines at twice the index and behind it and holds the lines between them, with
their endings; a delimiter line that is left over makes no block. A rewriting calls its function,
which may keep a state, once on each of these blocks, in order. -/
theorem extract_pairs (document : Text) :
    (∀ k b, (extract document)[k]? = some b ↔
      ∃ i j, (delimiters document)[2 * k]? = some i ∧ (delimiters document)[2 * k + 1]? = some j ∧
        b = ⟨i, j, ((Text.lines document).take j).drop (i + 1)⟩) ∧
    (extract document).length = (delimiters document).length / 2 ∧
    (∀ (dots : Nat) (f : Block → Text),
      rewrite document dots f = Id.run (rewriteM document dots fun b => pure (f b))) ∧
    ∀ (σ : Type) (dots : Nat) (f : Block → StateM σ Text),
      (rewriteM document dots (logged f)).run [] =
        (fun text => (text, extract document)) <$> rewriteM document dots f :=
  ⟨getElem?_extract_eq_some_iff document, length_extract document,
    fun dots f => (congrArg Id.run (rewriteM_pure document dots f)).symm,
    fun _ dots f => run_rewriteM_logged f document dots []⟩

end Block

/-! ### The formatter as a rewriting -/

namespace Format

/-- The new content of a block and, as a state, what came of the blocks so far. -/
def rewriter (formatter : Tool) (sentinel : Text) (b : Block) : StateM (List Outcome) Text := do
  let outcomes ← get
  let outcome := block formatter sentinel outcomes.length b.text
  set (outcomes ++ [outcome])
  pure (outcome.content.getD b.text)

theorem run_mapM_rewriter (formatter : Tool) (sentinel : Text) (bs : List Block)
    (outcomes : List Outcome) :
    (bs.mapM (rewriter formatter sentinel)).run outcomes =
      pure ((bs.zip (blocksFrom formatter sentinel outcomes.length bs)).map fun p =>
          p.2.content.getD p.1.text,
        outcomes ++ blocksFrom formatter sentinel outcomes.length bs) := by
  induction bs generalizing outcomes with
  | nil => simp [blocksFrom]
  | cons b bs ih => simp [rewriter, blocksFrom, ih]

/-- **Formatting is a rewriting of blocks** whose function calls the formatter and keeps what came
of it. -/
theorem document_eq_run (formatter : Tool) (options : Options) (text : Text) :
    (Block.rewriteM text options.dots (rewriter formatter options.sentinel)).run [] =
      pure ((Format.document formatter options text).text,
        blocksFrom formatter options.sentinel 0 (Block.extract text)) := by
  rw [Block.rewriteM_eq, StateT.run_map, run_mapM_rewriter, map_pure]
  rfl

end Format

end TemplateStyler
