import TemplateStyler.Proofs.Styler.Head
import TemplateStyler.Proofs.Styler.Marks
import TemplateStyler.Styler.Basic

/-!
# A pass from where it resumes

A pass takes a text up at some position in some state. What it gives depends on the two, and on
nothing else that the styler knows, whether or not the state is the one that the text has there.

* `Registry.takenUp`: the trace of a text from a position on in a given state, up to another
  position.
* `Styler.style_of_resume`: **the spans of a pass are those of the trace that it takes up.** It
  never fails where it resumes at a position of the text. A styler that knows nothing resumes at the
  start (`style_ofRegistry`).
* `Registry.colours_spans_takenUp`: **what it shows behind a line start** depends on the state that
  it comes there with (`Registry.leadsTo`) and the text from there on.
* `Styler.style_eq_error`: where it does not, it fails.
-/

namespace TemplateStyler

open Text Lexeme

/-- The trace of what follows a part of a text, taken up in a state, as far as it starts before a
position. -/
def Registry.takenUp (r : Registry) (s : State) (before rest : Text) (last : Nat) : Trace :=
  r.entries s ((r.grammar.scan (byteSize before) (before.getLast?.all (· == '\n')) rest).filter
    fun l => l.start < last)

namespace Registry

theorem takenUp_nil (r : Registry) (text : Text) (last : Nat) :
    r.takenUp .initial [] text last = r.head text last := rfl

/-- The state to which a state leads over a part of a text that stands behind another part. -/
def leadsTo (r : Registry) (s : State) (before part : Text) : State :=
  r.after s (r.grammar.scan (byteSize before) (before.getLast?.all (· == '\n')) part)

variable {r : Registry} {s : State}

theorem consistent_leadsTo (hs : s.Consistent) (before part : Text) :
    (r.leadsTo s before part).Consistent := r.consistent_after hs _

theorem consecutive_takenUp (s : State) (before rest : Text) (last : Nat) :
    Consecutive (byteSize before) ((r.takenUp s before rest last).map Entry.lexeme) := by
  have h := Grammar.consecutive_scan r.grammar (byteSize before)
    (before.getLast?.all (· == '\n')) rest
  obtain ⟨ls', hls, -⟩ := h.exists_append_filter last
  rw [hls, consecutive_append] at h
  rw [takenUp, map_lexeme_entries]
  exact h.1

/-- Between line starts no string is opened that ends with its line. -/
theorem not_inLineString_leadsTo (hr : r.OnOneLine) (hs : s.Consistent) (hnot : ¬ s.InLineString)
    {before part : Text} (hwhole : WholeLines (before ++ part)) :
    ¬ (r.leadsTo s before part).InLineString := by
  refine not_inLineString_after hr hwhole.of_append ?_ hs fun _ => hnot
  rintro rfl
  rwa [List.append_nil] at hwhole

/-- **The colours of a trace that is taken up** split at a line start. Behind it they are those of
the text from the state there, as far as they stand on whole lines or reach to the end. -/
theorem colours_takenUp (hr : r.OnOneLine) (hs : s.Consistent) (hnot : ¬ s.InLineString)
    {before part w z : Text} (hwhole : WholeLines (before ++ part)) (hend : WholeLines w ∨ z = []) :
    ∃ front, front.length = byteSize part ∧
      (r.takenUp s before (part ++ (w ++ z)) (byteSize (before ++ part ++ w))).colours =
        front ++ (r.coloursFrom (r.leadsTo s before part) (w ++ z)).take (byteSize w) := by
  have hopen := not_inLineString_leadsTo hr hs hnot hwhole
  have hstart : part = [] → before.getLast?.all (· == '\n') = true := by
    rintro rfl
    rwa [List.append_nil] at hwhole
  have hscan := Grammar.scan_append hr hwhole.of_append (w ++ z) (byteSize before) hstart
  have hsize : byteSize (before ++ part ++ w) = byteSize before + byteSize part + byteSize w := by
    rw [byteSize_append, byteSize_append]
  -- what starts behind the last position is left out
  have hfilter : (r.grammar.scan (byteSize before + byteSize part) true (w ++ z)).filter
      (fun l => l.start < byteSize (before ++ part ++ w)) =
      r.grammar.scan (byteSize before + byteSize part) true w := by
    rcases hend with hw | rfl
    · rw [Grammar.scan_append_of_start hr hw, List.filter_append, filter_scan (by omega),
        (Grammar.consecutive_scan _ _ _ _).filter_of_le (by omega), List.append_nil]
    · rw [List.append_nil, filter_scan (by omega)]
  have hbehind : (r.coloursFrom (r.leadsTo s before part) (w ++ z)).take (byteSize w) =
      r.coloursFrom (r.leadsTo s before part) w := by
    rcases hend with hw | rfl
    · have hlater : ¬ (r.after (r.leadsTo s before part) (r.grammar.scanText w)).InLineString :=
        not_inLineString_after hr hw (fun _ => rfl) (consistent_leadsTo hs _ _) fun _ => hopen
      rw [coloursFrom_append hr hw (consistent_leadsTo hs _ _) hlater,
        List.take_left' (length_coloursFrom _ _)]
    · rw [List.append_nil, List.take_of_length_le (length_coloursFrom _ _).le]
  refine ⟨(r.entries s (r.grammar.scan (byteSize before) (before.getLast?.all (· == '\n'))
    part)).colours, ?_, ?_⟩
  · rw [Trace.length_colours, map_lexeme_entries, Grammar.total_scan]
  · rw [takenUp, hscan, List.filter_append, filter_scan (by omega), hfilter, hbehind,
      colours_entries_append hs hopen]
    exact congrArg _ (colours_congr (Grammar.map_text_scan _ _ _ _ _) _)

/-- **What a pass shows that takes a text up before a line start** and ends at a line start or with
the text: from the line start on, the colours of the text from the state there. -/
theorem colours_spans_takenUp (hr : r.OnOneLine) (hs : s.Consistent)
    (hnot : ¬ s.InLineString) {before part rest : Text} (hwhole : WholeLines (before ++ part))
    {first last : Nat} (hfirst : byteSize (before ++ part) ≤ first) (hle : first ≤ last)
    (hlast : IsLineStart (before ++ part ++ rest) last ∨
      last = byteSize (before ++ part ++ rest)) :
    Span.colours ((r.takenUp s before (part ++ rest) last).spans first last) =
      ((r.coloursFrom (r.leadsTo s before part) rest).take
        (last - byteSize (before ++ part))).drop (first - byteSize (before ++ part)) := by
  obtain ⟨w, z, rfl, rfl, hend⟩ : ∃ w z, rest = w ++ z ∧ last = byteSize (before ++ part ++ w) ∧
      (WholeLines w ∨ z = []) := by
    rcases hlast with hline | rfl
    · obtain ⟨a, b, hab, rfl, ha⟩ := isLineStart_iff.1 hline
      obtain ⟨w, rfl, hw⟩ := prefix_of_byteSize_le hab (Nat.le_trans hfirst hle)
      exact ⟨w, b, hw, rfl, Or.inl ha.of_append⟩
    · exact ⟨rest, [], (List.append_nil rest).symm, rfl, Or.inr rfl⟩
  obtain ⟨front, hfront, hcolours⟩ := colours_takenUp hr hs hnot hwhole hend
  have hsize : byteSize (before ++ part ++ w) = byteSize (before ++ part) + byteSize w :=
    byteSize_append _ _
  have hpart : byteSize (before ++ part) = byteSize before + byteSize part := byteSize_append _ _
  rw [Trace.colours_spans _ _ (consecutive_takenUp _ _ _ _), hcolours, List.take_of_length_le,
    List.drop_append, hfront, List.drop_of_length_le (by omega), List.nil_append]
  · congr 1
    · omega
    · congr 1
      omega
  · have hlength := List.length_take_le (byteSize w)
      (r.coloursFrom (r.leadsTo s before part) (w ++ z))
    rw [List.length_append, hfront]
    omega

end Registry

namespace Styler

variable {r : Registry} {st : Styler} {s : State} {start stop : Nat}

/-- **A pass that resumes at a position of the text** gives the spans of the trace from there on. -/
theorem style_of_resume {before rest : Text} (hs : s.Consistent) (hregistry : st.registry = r)
    (hgrammar : st.grammar = r.grammar)
    (hseed : st.seed (before ++ rest) (floorBoundary (before ++ rest)
      (min start (floorBoundary (before ++ rest) stop))) = (byteSize before, s)) :
    ∃ pass st', st.style (before ++ rest) start stop = .ok (pass, st') ∧
      pass.start =
        floorBoundary (before ++ rest) (min start (floorBoundary (before ++ rest) stop)) ∧
      pass.spans = (r.takenUp s before rest (floorBoundary (before ++ rest) stop)).spans pass.start
        (floorBoundary (before ++ rest) stop) ∧
      st'.registry = r ∧ st'.grammar = r.grammar ∧
      st'.checkpoints = st.checkpoints.insertAll
        (r.takenUp s before rest (floorBoundary (before ++ rest) stop)).lineStarts := by
  have hlexemes := r.grammar.lexemes_append before rest
  obtain ⟨-, -, -, htake⟩ := (Grammar.consecutive_scan r.grammar (byteSize before)
    (before.getLast?.all (· == '\n')) rest).exists_append_filter
      (floorBoundary (before ++ rest) stop)
  have htrace := r.trace_eq_entries hs
    ((r.grammar.scan (byteSize before) (before.getLast?.all (· == '\n')) rest).filter
      fun l => l.start < floorBoundary (before ++ rest) stop)
  simp only [Styler.style, bind, Except.bind, pure, Except.pure, hseed, hgrammar, hlexemes,
    hregistry, htake, htrace]
  exact ⟨_, _, rfl, rfl, rfl, rfl, rfl, rfl⟩

/-- A styler that knows nothing takes the text up at its start, whatever the names of the registry
are. -/
theorem style_ofRegistry (r : Registry) (text : Text) (start stop : Nat) :
    ∃ pass st', (ofRegistry r).style text start stop = .ok (pass, st') ∧
      pass.start = floorBoundary text (min start (floorBoundary text stop)) ∧
      pass.spans = (r.head text (floorBoundary text stop)).spans pass.start
        (floorBoundary text stop) := by
  obtain ⟨pass, st', hstyle, hstart, hspans, -⟩ := @style_of_resume r (ofRegistry r) .initial start
    stop [] text State.consistent_initial rfl rfl rfl
  rw [List.nil_append] at hstyle hstart hspans
  exact ⟨pass, st', hstyle, hstart, hspans⟩

/-- **A pass that resumes elsewhere fails.** -/
theorem style_eq_error {text : Text} {resume : Nat}
    (hseed : st.seed text (floorBoundary text (min start (floorBoundary text stop))) =
      (resume, s)) (hlt : resume < byteSize text) (hnot : isBoundary text resume = false) :
    st.style text start stop = .error .badPosition := by
  have hcut : cut text (byteSize text) = .ok (text, []) :=
    cut_eq_ok_iff.2 ⟨(List.append_nil text).symm, rfl⟩
  have hnone : cut text resume = .error .badPosition := by
    rw [isBoundary, Option.isSome_eq_false_iff, Option.isNone_iff_eq_none] at hnot
    rw [cut, hnot]
  have hlexemes : st.grammar.lexemes text resume (byteSize text) = .error .badPosition := by
    rw [Grammar.lexemes, Nat.min_self, Nat.min_eq_left (Nat.le_of_lt hlt), hcut]
    simp only [bind, Except.bind, if_neg (Nat.ne_of_lt hlt), hnone]
  simp only [Styler.style, hseed, hlexemes, bind, Except.bind]

end Styler

end TemplateStyler
