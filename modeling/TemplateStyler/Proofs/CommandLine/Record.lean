import Mathlib.Data.List.Chain
import TemplateStyler.CommandLine.Record
import TemplateStyler.Proofs.Lexeme.Partition
import TemplateStyler.Proofs.Session.Cover
import TemplateStyler.Proofs.Styler.Seed

/-!
# Records tile the part asked for

The records of a part of a text lie side by side from its first position to its last one, and each
shows the text that it covers. Joining neighbours of one style takes away positions at which spans
meet, and adds none.

* `Span.OnPositions`: spans meet at positions of a text only. So do those of a pass
  (`Trace.onPositions_shownSpans`).
* `Span.Joins`: what comes of spans when neighbours of one style are joined. `Span.merge` joins all
  that there are (`merge_eq_ok`), so that what is left alternates (`Span.Alternates`).
* `Record.Tiling`: records side by side, each with its text. Those of spans that meet at positions
  are such (`tiling_ofSpans`).
* `ofSlice_tiles`: **the records of a part of a text tile it**, joined or not, and show what a pass
  paints.
-/

namespace TemplateStyler

open Text Lexeme

/-! ### Where spans meet -/

namespace Span

theorem total_append (before after : List Span) :
    total (before ++ after) = total before + total after := by
  induction before with
  | nil => simp [total]
  | cons span before ih =>
    rw [List.cons_append, total, total, ih, Nat.add_assoc]

/-- Spans from a position on begin and end at positions of a text. -/
def OnPositions (text : Text) : Nat → List Span → Prop
  | pos, [] => isBoundary text pos = true
  | pos, span :: spans =>
    isBoundary text pos = true ∧ OnPositions text (pos + span.length) spans

theorem OnPositions.start {text : Text} {pos : Nat} {spans : List Span}
    (h : OnPositions text pos spans) : isBoundary text pos = true := by
  cases spans with
  | nil => exact h
  | cons span spans => exact h.1

theorem onPositions_append {text : Text} {pos : Nat} {before after : List Span} :
    OnPositions text pos (before ++ after) ↔
      OnPositions text pos before ∧ OnPositions text (pos + total before) after := by
  induction before generalizing pos with
  | nil => exact ⟨fun h => ⟨h.start, h⟩, fun h => h.2⟩
  | cons span before ih =>
    rw [List.cons_append, OnPositions, OnPositions, ih, total, and_assoc, Nat.add_assoc]

end Span

namespace Trace

/-- **The spans of a trace meet at positions of the text**, where its lexemes do. -/
theorem onPositions_shownSpans {text : Text} {first last pos : Nat} {t : Trace}
    (ht : Consecutive pos (t.map Entry.lexeme)) (hpos : isBoundary text pos = true)
    (hstops : ∀ e ∈ t, isBoundary text e.lexeme.stop = true)
    (hfirst : isBoundary text first = true) (hlast : isBoundary text last = true)
    (hle : first ≤ last) :
    Span.OnPositions text (min (max pos first) last) (t.shownSpans first last) := by
  have hclamp : ∀ p, isBoundary text p = true →
      isBoundary text (min (max p first) last) = true := by
    intro p hp
    rcases Nat.le_total p first with h1 | h1 <;>
      rcases Nat.le_total (max p first) last with h2 | h2 <;> simp_all
  induction t generalizing pos with
  | nil => exact hclamp pos hpos
  | cons e rest ih =>
    obtain ⟨rfl, hrest⟩ := ht
    have hstop := hstops e List.mem_cons_self
    have hnext := ih hrest hstop fun e' he' => hstops e' (List.mem_cons_of_mem e he')
    have hsize : e.lexeme.start ≤ e.lexeme.stop := Nat.le_add_right _ _
    rw [shownSpans, clip_eq]
    split
    · next hlt =>
      have hend : min (max e.lexeme.start first) last +
          (min e.lexeme.stop last - max e.lexeme.start first) =
          min (max e.lexeme.stop first) last := by omega
      refine ⟨hclamp _ hpos, ?_⟩
      rw [← hend] at hnext
      exact hnext
    · next hge =>
      -- the lexeme lies outside the range, or stops where it starts
      by_cases hempty : e.lexeme.start = e.lexeme.stop
      · rw [hempty]
        exact hnext
      · have hend : min (max e.lexeme.start first) last = min (max e.lexeme.stop first) last := by
          omega
        rw [hend]
        exact hnext

end Trace

/-! ### Joined spans -/

namespace Span

/-- What comes of spans when neighbours of one style are joined, any number of times. -/
inductive Joins (spans : List Span) : List Span → Prop
  | refl : Joins spans spans
  | join {before after : List Span} {m n : Nat} {style : Style}
      (h : Joins spans (before ++ ⟨m, style⟩ :: ⟨n, style⟩ :: after)) :
      Joins spans (before ++ ⟨m + n, style⟩ :: after)

theorem Joins.colours {spans joined : List Span} (h : Joins spans joined) :
    Span.colours joined = Span.colours spans := by
  induction h with
  | refl => rfl
  | join _ ih =>
    rw [← ih]
    simp only [Span.colours, List.flatMap_append, List.flatMap_cons, List.append_assoc,
      ← List.replicate_append_replicate]

theorem Joins.length_pos {spans joined : List Span} (h : Joins spans joined)
    (hspans : ∀ span ∈ spans, 0 < span.length) : ∀ span ∈ joined, 0 < span.length := by
  induction h with
  | refl => exact hspans
  | @join before after m n style _ ih =>
    intro span hspan
    simp only [List.mem_append, List.mem_cons] at hspan ih
    rcases hspan with hspan | rfl | hspan
    · exact ih span (Or.inl hspan)
    · exact Nat.add_pos_left (ih ⟨m, style⟩ (Or.inr (Or.inl rfl))) n
    · exact ih span (Or.inr (Or.inr (Or.inr hspan)))

theorem Joins.onPositions {text : Text} {pos : Nat} {spans joined : List Span}
    (h : Joins spans joined) (hspans : OnPositions text pos spans) :
    OnPositions text pos joined := by
  induction h with
  | refl => exact hspans
  | join _ ih =>
    rw [onPositions_append] at ih ⊢
    obtain ⟨hbefore, hpos, -, hafter⟩ := ih
    rw [Nat.add_assoc] at hafter
    exact ⟨hbefore, hpos, hafter⟩

/-- Spans of which no neighbours have one style. -/
def Alternates (spans : List Span) : Prop := spans.IsChain fun span next => span.style ≠ next.style

theorem alternates_reverse {spans : List Span} : Alternates spans.reverse ↔ Alternates spans := by
  rw [Alternates, List.isChain_reverse]
  exact ⟨fun h => h.imp fun _ _ hne => hne.symm, fun h => h.imp fun _ _ hne => hne.symm⟩

/-- One more span is joined to the last one, or stands behind it in another style. -/
theorem push_eq_ok {merged : List Span} {span : Span} {rest : List Span}
    (hmerged : Alternates merged) (hfit : total (merged.reverse ++ span :: rest) < Size.bound) :
    ∃ merged', push merged span = .ok merged' ∧ Alternates merged' ∧
      Joins (merged.reverse ++ span :: rest) (merged'.reverse ++ rest) := by
  cases merged with
  | nil => exact ⟨[span], rfl, List.isChain_singleton _, .refl⟩
  | cons last before =>
    obtain ⟨n, style⟩ := span
    obtain ⟨m, style'⟩ := last
    by_cases hstyle : style' = style
    · subst hstyle
      have hsum : m + n < Size.bound := by
        simp only [List.reverse_cons, List.append_assoc, total_append, total] at hfit
        omega
      refine ⟨⟨m + n, style'⟩ :: before, ?_, ?_, ?_⟩
      · simp only [push, if_true, Size.add_eq_ok.2 ⟨hsum, rfl⟩, bind, Except.bind, pure,
          Except.pure]
      · cases before with
        | nil => exact List.isChain_singleton _
        | cons span before =>
          rw [Alternates, List.isChain_cons_cons] at hmerged ⊢
          exact hmerged
      · rw [List.reverse_cons, List.reverse_cons, List.append_assoc, List.append_assoc]
        exact .join .refl
    · refine ⟨⟨n, style⟩ :: ⟨m, style'⟩ :: before, by simp only [push, if_neg hstyle], ?_, ?_⟩
      · exact List.isChain_cons_cons.2 ⟨Ne.symm hstyle, hmerged⟩
      · have hrest : (⟨n, style⟩ :: ⟨m, style'⟩ :: before).reverse ++ rest =
            (⟨m, style'⟩ :: before).reverse ++ ⟨n, style⟩ :: rest := by
          rw [List.reverse_cons, List.append_assoc]
          rfl
        rw [hrest]
        exact .refl

theorem Joins.trans {spans joined joined' : List Span} (h : Joins spans joined)
    (h' : Joins joined joined') : Joins spans joined' := by
  induction h' with
  | refl => exact h
  | join _ ih => exact .join ih

theorem foldlM_push {merged spans : List Span} (hmerged : Alternates merged)
    (hfit : total (merged.reverse ++ spans) < Size.bound) :
    ∃ merged', spans.foldlM push merged = .ok merged' ∧ Alternates merged' ∧
      Joins (merged.reverse ++ spans) merged'.reverse := by
  induction spans generalizing merged with
  | nil => exact ⟨merged, rfl, hmerged, by rw [List.append_nil]; exact .refl⟩
  | cons span spans ih =>
    obtain ⟨merged₁, hpush, halternates, hjoins⟩ := push_eq_ok hmerged hfit
    have hfit₁ : total (merged₁.reverse ++ spans) < Size.bound := by
      rwa [← length_colours, hjoins.colours, length_colours]
    obtain ⟨merged', hfold, halternates', hjoins'⟩ := ih halternates hfit₁
    refine ⟨merged', ?_, halternates', hjoins.trans hjoins'⟩
    rw [List.foldlM_cons, hpush]
    exact hfold

/-- **Merging joins all neighbours of one style**, and never fails while the spans have a size. -/
theorem merge_eq_ok {spans : List Span} (hfit : total spans < Size.bound) :
    ∃ merged, merge spans = .ok merged ∧ Alternates merged ∧ Joins spans merged := by
  obtain ⟨merged, hfold, halternates, hjoins⟩ :
      ∃ merged, spans.foldlM push [] = .ok merged ∧ Alternates merged ∧
        Joins spans merged.reverse := foldlM_push List.isChain_nil hfit
  exact ⟨merged.reverse, by rw [merge, hfold]; rfl, alternates_reverse.2 halternates, hjoins⟩

end Span

/-! ### Records side by side -/

namespace Record

/-- Records side by side from one position to another one, none of them empty, each with the part of
the text that it covers. -/
inductive Tiling (text : Text) : Nat → List Record → Nat → Prop
  | nil (pos : Nat) : Tiling text pos [] pos
  | cons {pos stop : Nat} {shown : Record} {rest : List Record} (hstart : shown.start = pos)
      (hne : shown.text ≠ []) (hslice : slice? text pos (pos + shown.length) = some shown.text)
      (hrest : Tiling text (pos + shown.length) rest stop) : Tiling text pos (shown :: rest) stop

/-- The texts of records side by side make up the part of the text that they cover. -/
theorem Tiling.slice? {text : Text} {start stop : Nat} {records : List Record}
    (h : Tiling text start records stop) (hstart : isBoundary text start = true) :
    Text.slice? text start stop = some (records.map Record.text).flatten := by
  induction h with
  | nil pos =>
    obtain ⟨a, b, rfl, rfl⟩ := isBoundary_iff.1 hstart
    exact slice?_eq_some_iff.2 ⟨a, b, rfl, rfl, by rw [List.map_nil]; simp⟩
  | cons _ _ hslice _ ih => exact slice?_trans hslice (ih (isBoundary_of_slice? hslice))

/-- The style that records show for a byte. -/
def styleAt? (records : List Record) (pos : Nat) : Option Style :=
  (records.find? fun shown => shown.start ≤ pos ∧ pos < shown.start + shown.length).map Record.style

/-- **The records of spans that meet at positions of the text tile it.** -/
theorem tiling_ofSpans {text : Text} {start : Nat} {spans : List Span}
    (hspans : Span.OnPositions text start spans) (hpos : ∀ span ∈ spans, 0 < span.length) :
    Tiling text start (ofSpans text start spans) (start + Span.total spans) := by
  induction spans generalizing start with
  | nil => exact .nil start
  | cons span spans ih =>
    obtain ⟨hstart, hrest⟩ := hspans
    obtain ⟨hlength, hpos'⟩ := List.forall_mem_cons.1 hpos
    obtain ⟨part, hslice, hsize⟩ := exists_slice? hstart hrest.start (Nat.le_add_right _ _)
    have hne : part ≠ [] := by
      rintro rfl
      rw [byteSize_nil] at hsize
      omega
    have htiled := ih hrest hpos'
    rw [ofSpans, Span.total, ← Nat.add_assoc, hslice, Option.getD_some]
    exact .cons rfl hne hslice htiled

theorem styleAt?_ofSpans (text : Text) (start : Nat) (spans : List Span) (pos : Nat) :
    styleAt? (ofSpans text start spans) pos =
      if start ≤ pos then (Span.colours spans)[pos - start]? else none := by
  induction spans generalizing start with
  | nil => simp [ofSpans, styleAt?, Span.colours]
  | cons span spans ih =>
    have hcolours : Span.colours (span :: spans) =
        List.replicate span.length span.style ++ Span.colours spans := rfl
    simp only [styleAt?] at ih
    simp only [ofSpans, styleAt?, hcolours]
    by_cases hin : start ≤ pos ∧ pos < start + span.length
    · rw [List.find?_cons_of_pos (by simpa using hin), if_pos hin.1,
        List.getElem?_append_left (by rw [List.length_replicate]; omega), List.getElem?_replicate,
        if_pos (by omega)]
      rfl
    · rw [List.find?_cons_of_neg (by simpa using hin), ih]
      by_cases hstart : start ≤ pos
      · rw [if_pos (by omega), if_pos hstart,
          List.getElem?_append_right (by rw [List.length_replicate]; omega), List.length_replicate,
          Nat.sub_add_eq]
      · rw [if_neg (by omega), if_neg hstart]

theorem chain_ofSpans {text : Text} {start : Nat} {spans : List Span}
    (h : Span.Alternates spans) :
    (ofSpans text start spans).IsChain fun shown next => shown.style ≠ next.style := by
  induction spans generalizing start with
  | nil => exact List.isChain_nil
  | cons span spans ih =>
    cases spans with
    | nil => exact List.isChain_singleton _
    | cons next spans =>
      obtain ⟨hne, hrest⟩ := List.isChain_cons_cons.1 h
      exact List.isChain_cons_cons.2 ⟨hne, ih hrest⟩

/-! ### Records of a part of a text -/

/-- What a pass over a fresh buffer paints is what the records of its spans show. -/
theorem styleAt_paint {text : Text} {start : Nat} {spans : List Span}
    (hle : start + Span.total spans ≤ byteSize text) (hfit : byteSize text < Size.bound) :
    ∃ b, (Buffer.ofText text).paint start spans = .ok b ∧
      ∀ pos, b.styleAt pos = if start ≤ pos then (Span.colours spans)[pos - start]? else none := by
  have hlength : (Buffer.ofText text).styles.length = byteSize text := Buffer.sound_ofText text
  refine ⟨_, Buffer.paint_eq (by omega) (by omega), fun pos => ?_⟩
  have hnone : ∀ n : Nat,
      ((List.replicate (byteSize text) (none : Option Style))[n]?).join = none := by
    intro n
    rw [List.getElem?_replicate]
    split <;> rfl
  have hfront : ((Buffer.ofText text).styles.take start).length = start := by
    rw [List.length_take]
    omega
  rw [Buffer.styleAt, List.append_assoc]
  by_cases hstart : start ≤ pos
  · rw [if_pos hstart, List.getElem?_append_right (by omega), hfront]
    by_cases hin : pos - start < Span.total spans
    · rw [List.getElem?_append_left (by rw [List.length_map, Span.length_colours]; exact hin),
        List.getElem?_map]
      cases (Span.colours spans)[pos - start]? <;> rfl
    · rw [List.getElem?_append_right (by rw [List.length_map, Span.length_colours]; omega),
        List.getElem?_drop, Buffer.ofText, hnone,
        List.getElem?_eq_none (by rw [Span.length_colours]; omega)]
  · rw [if_neg hstart, List.getElem?_append_left (by omega), List.getElem?_take_of_lt (by omega),
      Buffer.ofText, hnone]

/-- What a pass over a text from its start gives: no span is empty, and they meet at positions of
the text, from the first position of the range to the last one. -/
theorem spans_head_onPositions (r : Registry) {text : Text} {first last : Nat}
    (hfirst : isBoundary text first = true) (hlast : isBoundary text last = true)
    (hle : first ≤ last) (hsize : last ≤ byteSize text) :
    Span.OnPositions text first ((r.head text last).spans first last) ∧
      (∀ span ∈ (r.head text last).spans first last, 0 < span.length) ∧
      first + Span.total ((r.head text last).spans first last) = last := by
  have hstops : ∀ e ∈ r.head text last, isBoundary text e.lexeme.stop = true := by
    intro e he
    have hmem := (List.mem_filter.1 (r.lexeme_mem_of_mem_entries he)).1
    have hpartition := r.grammar.partition_scan [] text []
    rw [List.append_nil] at hpartition
    exact (hpartition.boundaries e.lexeme hmem).2
  have hzero : isBoundary text 0 = true := isBoundary_append [] text
  have hmeet := Trace.onPositions_shownSpans (r.consecutive_head text last) hzero hstops hfirst
    hlast hle
  refine ⟨?_, fun span => Trace.length_pos_of_mem_spans, ?_⟩
  · rw [Trace.spans_eq]
    rwa [Nat.zero_max, Nat.min_eq_left hle] at hmeet
  · rw [← Span.length_colours, Registry.colours_spans_head, Registry.length_shownIn hsize]
    omega

/-- **The records of a part of a text tile it**, for any names, any two numbers, joined or not. They
lie side by side from the position to which the first number is lowered to that of the second one,
none of them is empty, and each has the part of the text that it covers, so that together they have
the whole part. They show each byte in the style in which a pass paints it on a fresh buffer. No two
neighbours have one style if they are joined. -/
theorem ofSlice_tiles (r : Registry) {text : Text} (hfit : byteSize text < Size.bound)
    (start stop : Nat) :
    ∃ (first last : Nat) (pass : Pass) (s' : Session),
      IsGreatest {pos | isBoundary text pos = true ∧ pos ≤ stop} last ∧
      IsGreatest {pos | isBoundary text pos = true ∧ pos ≤ min start last} first ∧
      (Session.ofText r text).style start stop = .ok (pass, s') ∧ pass.start = first ∧
      ∀ merged : Bool, ∃ records, ofSlice r text start stop merged = .ok records ∧
        Tiling text pass.start records last ∧
        slice? text pass.start last = some (records.map Record.text).flatten ∧
        (∀ pos, styleAt? records pos = s'.buffer.styleAt pos) ∧
        (merged = true → records.IsChain fun shown next => shown.style ≠ next.style) := by
  obtain ⟨pass, st', hstyle, hstart, hspans⟩ := Styler.style_ofRegistry r text start stop
  have hlast := isBoundary_floorBoundary text stop
  have hfirst := isBoundary_floorBoundary text (min start (floorBoundary text stop))
  have hle := Nat.le_trans (floorBoundary_le text (min start (floorBoundary text stop)))
    (Nat.min_le_right _ _)
  have hsize := floorBoundary_le_byteSize text stop
  obtain ⟨hmeet, hpos, htotal⟩ := spans_head_onPositions r hfirst hlast hle hsize
  rw [← hstart] at hmeet hpos htotal hfirst
  rw [← hspans] at hmeet hpos htotal
  obtain ⟨b, hpaint, hshown⟩ := styleAt_paint (htotal.trans_le hsize) hfit
  refine ⟨_, _, pass, ⟨st', b⟩, isGreatest_floorBoundary _ _, isGreatest_floorBoundary _ _,
    Session.style_eq_ok_iff.2 ⟨st', b, hstyle, hpaint, rfl⟩, hstart, fun merged => ?_⟩
  have htotal' : Span.total pass.spans < Size.bound := by omega
  obtain ⟨joined, hmerge, halternates, hjoins⟩ := Span.merge_eq_ok htotal'
  -- joined or not, the records are those of spans that come of joining
  obtain ⟨shown, hjoined, hresult, hchain⟩ : ∃ shown, Span.Joins pass.spans shown ∧
      ofSlice r text start stop merged = .ok (ofSpans text pass.start shown) ∧
      (merged = true → Span.Alternates shown) := by
    cases merged with
    | false =>
      exact ⟨pass.spans, .refl, by rw [ofSlice, hstyle]; rfl, Bool.noConfusion⟩
    | true =>
      refine ⟨joined, hjoins, ?_, fun _ => halternates⟩
      simp only [ofSlice, hstyle, hmerge, if_true, Fault.ok_bind, Fault.pure_eq_ok]
  have htiling := tiling_ofSpans (hjoined.onPositions hmeet) (hjoined.length_pos hpos)
  rw [← Span.length_colours, hjoined.colours, Span.length_colours, htotal] at htiling
  refine ⟨_, hresult, htiling, htiling.slice? hfirst, fun pos => ?_, fun h => ?_⟩
  · rw [styleAt?_ofSpans, hjoined.colours, hshown]
  · exact chain_ofSpans (hchain h)

/-- A part that is asked for from within a character and up to within another one. -/
theorem ofSlice_tiles_within_character :
    byteSize "....\né='é'\n".toList < Size.bound ∧
      ∃ (pass : Pass) (s' : Session) (records joined : List Record),
        (Session.ofText {} "....\né='é'\n".toList).style 6 10 = .ok (pass, s') ∧
        pass.start = 5 ∧
        ofSlice {} "....\né='é'\n".toList 6 10 false = .ok records ∧
        Tiling "....\né='é'\n".toList 5 records 9 ∧ records.length = 3 ∧
        ofSlice {} "....\né='é'\n".toList 6 10 true = .ok joined ∧
        Tiling "....\né='é'\n".toList 5 joined 9 ∧
        joined = [⟨5, 3, .scriptBody, "é=".toList⟩, ⟨8, 1, .singleQuoteString, "'".toList⟩] ∧
        ∀ pos, styleAt? records pos = styleAt? joined pos := by
  have hfit : byteSize "....\né='é'\n".toList < Size.bound := by decide
  obtain ⟨first, last, pass, s', hlast, hfirst, hstyle, hstart, hrecords⟩ :=
    ofSlice_tiles {} hfit 6 10
  have hlast' : last = 9 := hlast.unique (isGreatest_floorBoundary _ _)
  subst hlast'
  have hfirst' : first = 5 := hfirst.unique (isGreatest_floorBoundary _ _)
  subst hfirst'
  obtain ⟨records, hplain, htiling, -, hshown, -⟩ := hrecords false
  obtain ⟨joined, hjoined, htiling', -, hshown', -⟩ := hrecords true
  rw [hstart] at htiling htiling'
  have hlength : (ofSlice {} "....\né='é'\n".toList 6 10 false).toOption.map List.length =
      some 3 := by
    decide +kernel
  have hrun : (ofSlice {} "....\né='é'\n".toList 6 10 true).toOption =
      some [⟨5, 3, .scriptBody, "é=".toList⟩, ⟨8, 1, .singleQuoteString, "'".toList⟩] := by
    decide +kernel
  rw [hplain] at hlength
  rw [hjoined] at hrun
  exact ⟨hfit, pass, s', records, joined, hstyle, hstart, hplain, htiling,
    Option.some.inj hlength, hjoined, htiling', Option.some.inj hrun,
    fun pos => (hshown pos).trans (hshown' pos).symm⟩

end Record

end TemplateStyler
