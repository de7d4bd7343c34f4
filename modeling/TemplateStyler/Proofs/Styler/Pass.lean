import TemplateStyler.Proofs.Styler.Head
import TemplateStyler.Proofs.Styler.Marks
import TemplateStyler.Styler.Basic

/-!
# A pass over a range

A pass resumes from a checkpoint. If the checkpoints are exact, what it gives is read off the course
of the whole text, and so does not depend on the checkpoint.

* `Styler.Exact`: every checkpoint is a line start of the text with its state. A styler that knows
  nothing is exact (`exact_ofRegistry`).
* `Styler.Passes`: what a pass over a range gives and what the styler knows after it.
* `Exact.style`: **an exact styler passes over every range**, and is exact after it. This is the one
  fact about `Styler.style` that later proofs use.
-/

namespace TemplateStyler

open Text Lexeme

/-! ### Exact stylers -/

/-- A styler whose checkpoints are line starts of a text, each with its state. -/
structure Styler.Exact (st : Styler) (r : Registry) (text : Text) : Prop where
  registry : st.registry = r
  grammar : st.grammar = r.grammar
  checkpoints : ∀ p s, st.checkpoints.get? p = some s →
    0 < p ∧ IsLineStart text p ∧ s = r.stateAt text p

/-- What a pass between two positions gives, and what the styler knows after it. -/
structure Styler.Passes (st : Styler) (r : Registry) (text : Text) (first last : Nat) (pass : Pass)
    (st' : Styler) : Prop where
  start : pass.start = first
  spans : pass.spans = (r.head text last).spans first last
  endState : pass.endState = (r.head text last).endState .initial
  restyleFrom : pass.restyleFrom =
    if first < last ∧ last < byteSize text ∧
        ¬ (IsLineStart text last ∧ st.painted.get? last = some (r.stateAt text last)) then some last
    else none
  exact : st'.Exact r text
  painted : ∀ p, st'.painted.get? p =
    if IsLineStart text p ∧ first ≤ p ∧ p < last then some (r.stateAt text p)
    else st.painted.get? p
  within : st.painted.Within (byteSize text) → st'.painted.Within (byteSize text)

namespace Styler

variable {r : Registry}

theorem exact_ofRegistry (r : Registry) (text : Text) : (ofRegistry r).Exact r text :=
  ⟨rfl, rfl, fun p s h => by cases h⟩

theorem Passes.colours_spans {st st' : Styler} {text : Text} {first last : Nat} {pass : Pass}
    (h : st.Passes r text first last pass st') :
    Span.colours pass.spans = r.shownIn text first last := by
  rw [h.spans]
  exact Registry.colours_spans_head _ _ _

/-- The spans of a pass reach up to its end. -/
theorem Passes.stop_eq {st st' : Styler} {text : Text} {first last : Nat} {pass : Pass}
    (h : st.Passes r text first last pass st') (hle : first ≤ last) (hlast : last ≤ byteSize text) :
    pass.start + Span.total pass.spans = last := by
  have htotal : Span.total pass.spans = last - first := by
    rw [← Span.length_colours, h.colours_spans, Registry.length_shownIn hlast]
  rw [h.start, htotal]
  omega

/-- An exact styler resumes at a line start with its state. -/
theorem Exact.seed {st : Styler} {c : Text} {d : Text} (h : st.Exact r (c ++ d)) :
    ∃ a x, c = a ++ x ∧ WholeLines a ∧
      st.seed (c ++ d) (byteSize c) = (byteSize a, r.stateAfter a) := by
  rw [Styler.seed]
  cases hnearest : st.checkpoints.nearest? (lineStart (c ++ d) (byteSize c)) with
  | none => exact ⟨[], c, rfl, wholeLines_nil, by simp⟩
  | some m =>
    obtain ⟨p, s⟩ := m
    obtain ⟨hle, hget⟩ := Marks.nearest?_get? hnearest
    obtain ⟨-, hline, rfl⟩ := h.checkpoints p s hget
    obtain ⟨a, b, hab, rfl, ha⟩ := isLineStart_iff.1 hline
    obtain ⟨whole, line, hc, -, -, hstart⟩ := exists_lineStart c d
    have hac : byteSize a ≤ byteSize c := by
      have := congrArg byteSize hc
      rw [byteSize_append] at this
      omega
    obtain ⟨x, hx, -⟩ := prefix_of_byteSize_le hab.symm hac
    exact ⟨a, x, hx, ha, by rw [hab, Registry.stateAt_append]; rfl⟩

/-- The state that a pass marks at its first position. -/
def firstPainted (t : Trace) (text : Text) (first : Nat) : Option (Nat × State) :=
  if lineStart text first = first then
    (t.find? (·.lexeme.start == first)).map fun e => (first, e.before) else none

/-- The states that a pass between two positions marks as painted. -/
def newlyPainted (t : Trace) (text : Text) (first last : Nat) : List (Nat × State) :=
  (firstPainted t text first).toList ++ t.lineStarts.filter fun m => first < m.1 && m.1 < last

theorem firstPainted_eq_some_iff (hr : r.OnOneLine) {a x d : Text} (ha : WholeLines a) {last : Nat}
    (hd : byteSize (a ++ x) < last → d ≠ []) {m : Nat × State} :
    firstPainted (r.headAfter a (x ++ d) last) (a ++ x ++ d) (byteSize (a ++ x)) = some m ↔
      m.1 = byteSize (a ++ x) ∧ WholeLines (a ++ x) ∧ m.1 < last ∧
        m.2 = r.stateAfter (a ++ x) := by
  rw [firstPainted]
  constructor
  · intro hm
    split at hm
    · next hstart =>
      have hwhole := (lineStart_eq_self_iff _ _).1 hstart
      obtain ⟨e, he, rfl⟩ := Option.map_eq_some_iff.1 hm
      have hfirst : e.lexeme.start = byteSize (a ++ x) := by simpa using List.find?_some he
      have hlt := ((r.mem_entries_filter (Grammar.consecutive_scan _ _ _ _) last).1
        (List.mem_of_find?_eq_some he)).2
      have hbefore := Registry.find?_headAfter hr ha hwhole.of_append (hd (by omega))
        (hfirst ▸ hlt)
      rw [he] at hbefore
      exact ⟨rfl, hwhole, hfirst ▸ hlt, Option.some.inj hbefore⟩
    · cases hm
  · obtain ⟨p, s⟩ := m
    rintro ⟨rfl, hwhole, hlt, rfl⟩
    have hfind := Registry.find?_headAfter hr ha hwhole.of_append (hd hlt) hlt
    obtain ⟨e, he, hbefore⟩ := Option.map_eq_some_iff.1 hfind
    rw [if_pos ((lineStart_eq_self_iff _ _).2 hwhole), he, ← hbefore]
    rfl

theorem mem_newlyPainted (hr : r.OnOneLine) {a x d : Text} (ha : WholeLines a) {last : Nat}
    (hlast : last ≤ byteSize (a ++ x ++ d)) {m : Nat × State} :
    m ∈ newlyPainted (r.headAfter a (x ++ d) last) (a ++ x ++ d) (byteSize (a ++ x)) last ↔
      IsLineStart (a ++ x ++ d) m.1 ∧ byteSize (a ++ x) ≤ m.1 ∧ m.1 < last ∧
        m.2 = r.stateAt (a ++ x ++ d) m.1 := by
  obtain ⟨p, s⟩ := m
  have hd : byteSize (a ++ x) < last → d ≠ [] := by
    rintro hlt rfl
    rw [List.append_nil] at hlast
    omega
  simp only [newlyPainted, List.mem_append, Option.mem_toList, List.mem_filter, Bool.and_eq_true,
    decide_eq_true_eq, firstPainted_eq_some_iff hr ha hd]
  constructor
  · rintro (⟨rfl, hwhole, hlt, rfl⟩ | ⟨hm, hlt⟩)
    · exact ⟨isLineStart_append.2 hwhole, Nat.le_refl _, hlt, (r.stateAt_append _ _).symm⟩
    · obtain ⟨u, v, hxd, -, hu, heq⟩ := Registry.exists_of_mem_lineStarts hr ha hm
      obtain ⟨rfl, rfl⟩ := Prod.mk.inj heq
      rw [List.append_assoc, hxd, ← List.append_assoc]
      exact ⟨isLineStart_append.2 (ha.append hu), by omega, hlt.2, (r.stateAt_append _ _).symm⟩
  · rintro ⟨hstart, hle, hlt, rfl⟩
    obtain ⟨u, v, huv, rfl, hu⟩ := isLineStart_iff.1 hstart
    obtain ⟨w, rfl, hw⟩ := prefix_of_byteSize_le huv hle
    rw [huv, Registry.stateAt_append]
    by_cases hne : w = []
    · subst hne
      rw [List.append_nil] at hu hlt ⊢
      exact Or.inl ⟨rfl, hu, hlt, rfl⟩
    · have hwhole : WholeLines (x ++ w) := by
        rw [List.append_assoc] at hu
        exact hu.of_append
      have hle' : byteSize (a ++ (x ++ w)) ≤ last := by
        rw [← List.append_assoc]
        omega
      have hmem := Registry.mem_lineStarts_headAfter hr ha (by simp [hne]) hwhole v hle'
      have hpos := byteSize_pos hne
      refine Or.inr ⟨by simpa only [hw, List.append_assoc] using hmem, ?_, hlt⟩
      rw [byteSize_append (a ++ x)]
      omega

/-- From a checkpoint on a pass takes the course of the text, up to its end. -/
theorem Exact.trace_eq {st : Styler} {a b : Text} (h : st.Exact r (a ++ b)) (ha : WholeLines a)
    (last : Nat) :
    st.grammar.lexemes (a ++ b) (byteSize a) (byteSize (a ++ b)) =
        .ok (r.grammar.scan (byteSize a) true b) ∧
      st.registry.trace (r.stateAfter a) ((r.grammar.scan (byteSize a) true b).takeWhile
        fun l => l.start < last) = .ok (r.headAfter a b last) := by
  constructor
  · rw [h.grammar, Grammar.lexemes_wholeLines _ ha]
  · obtain ⟨-, -, -, htake⟩ :=
      (Grammar.consecutive_scan r.grammar (byteSize a) true b).exists_append_filter last
    rw [h.registry, htake, r.trace_eq_entries (r.consistent_stateAfter a)]
    rfl

/-- The checkpoints that a pass adds are line starts with their states. -/
theorem Exact.checkpoints_insertAll {st : Styler} {a b : Text} (hr : r.OnOneLine)
    (h : st.Exact r (a ++ b)) (ha : WholeLines a) {last p : Nat} {s : State}
    (hget : (st.checkpoints.insertAll (r.headAfter a b last).lineStarts).get? p = some s) :
    0 < p ∧ IsLineStart (a ++ b) p ∧ s = r.stateAt (a ++ b) p := by
  have hmarks : ∀ m ∈ (r.headAfter a b last).lineStarts, 0 < m.1 ∧
      IsLineStart (a ++ b) m.1 ∧ m.2 = r.stateAt (a ++ b) m.1 := by
    intro m hm
    obtain ⟨u, v, rfl, hne, hu, rfl⟩ := Registry.exists_of_mem_lineStarts hr ha hm
    rw [← List.append_assoc, Registry.stateAt_append]
    exact ⟨byteSize_pos (by simp [hne]), isLineStart_append.2 (ha.append hu), rfl⟩
  by_cases hmem : ∃ s', (p, s') ∈ (r.headAfter a b last).lineStarts
  · obtain ⟨s', hs'⟩ := hmem
    obtain ⟨hpos, hline, -⟩ := hmarks _ hs'
    have hnew := Marks.get?_insertAll_of_mem (fun m hm => (hmarks m hm).2.2) hs' st.checkpoints
    exact ⟨hpos, hline, Option.some.inj (hget.symm.trans hnew)⟩
  · have hold := Marks.get?_insertAll_of_not_mem (fun s' hs' => hmem ⟨s', hs'⟩) st.checkpoints
    exact h.checkpoints p s (hold.symm.trans hget)

/-- **A pass over a range is read off the course of the text**, whatever is marked. -/
theorem Exact.style {st : Styler} {text : Text} (hr : r.OnOneLine) (h : st.Exact r text)
    (start stop : Nat) :
    ∃ pass st', st.style text start stop = .ok (pass, st') ∧
      st.Passes r text (floorBoundary text (min start (floorBoundary text stop)))
        (floorBoundary text stop) pass st' := by
  obtain ⟨c, d, rfl, hc⟩ := exists_floorBoundary text (min start (floorBoundary text stop))
  have hle : byteSize c ≤ floorBoundary (c ++ d) stop := by
    rw [hc]
    exact Nat.le_trans (floorBoundary_le _ _) (Nat.min_le_right _ _)
  have hlast := floorBoundary_le_byteSize (c ++ d) stop
  obtain ⟨a, x, rfl, ha, hseed⟩ := h.seed
  have h' : st.Exact r (a ++ (x ++ d)) := by rwa [← List.append_assoc]
  obtain ⟨hlexemes, htrace⟩ := h'.trace_eq ha (floorBoundary (a ++ x ++ d) stop)
  rw [← List.append_assoc] at hlexemes
  simp only [Styler.style, bind, Except.bind, pure, Except.pure, ← hc, hseed, hlexemes, htrace]
  generalize floorBoundary (a ++ x ++ d) stop = last at *
  have hax : byteSize a ≤ byteSize (a ++ x) := by
    rw [byteSize_append]
    omega
  have hpainted : ∀ m, m ∈ newlyPainted (r.headAfter a (x ++ d) last) (a ++ x ++ d)
      (byteSize (a ++ x)) last ↔ _ := fun m => mem_newlyPainted hr ha hlast
  refine ⟨_, _, rfl, rfl, ?_, ?_, ?_, ⟨h.registry, h.grammar, ?_⟩, ?_, ?_⟩
  · simp only [List.append_assoc]
    rw [Registry.spans_head hr ha (x ++ d) (by simp) (by simpa using hle)]
  · simp only [List.append_assoc]
    rw [Registry.endState_head hr ha (x ++ d) (Nat.le_trans hax hle)]
  · by_cases hlt : byteSize (a ++ x) < last
    · have hsettled := Registry.any_lineStarts hr (b := x ++ d) ha
        (Nat.lt_of_le_of_lt hax hlt) (st.painted.get? last)
      rw [← List.append_assoc] at hsettled
      simp only [hsettled]
    · simp only [hlt, false_and, if_false]
  · intro p s hget
    rw [List.append_assoc]
    exact h'.checkpoints_insertAll hr ha hget
  · intro p
    by_cases hp : IsLineStart (a ++ x ++ d) p ∧ byteSize (a ++ x) ≤ p ∧ p < last
    · rw [if_pos hp]
      exact Marks.get?_insertAll_of_mem (fun m hm => ((hpainted m).1 hm).2.2.2)
        ((hpainted (p, r.stateAt _ p)).2 ⟨hp.1, hp.2.1, hp.2.2, rfl⟩) st.painted
    · rw [if_neg hp]
      exact Marks.get?_insertAll_of_not_mem (fun s hs =>
        hp ⟨((hpainted _).1 hs).1, ((hpainted _).1 hs).2.1, ((hpainted _).1 hs).2.2.1⟩) st.painted
  · intro hwithin
    exact hwithin.insertAll fun m hm => ((hpainted m).1 hm).1.le

end Styler

end TemplateStyler
