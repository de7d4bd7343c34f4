import Mathlib.Data.Nat.Find
import Mathlib.Order.Bounds.Basic
import TemplateStyler.Proofs.Session.Request
import TemplateStyler.Proofs.Styler.Seed

/-!
# A text styled aside

Styling a whole text from scratch needs no buffer. The styler forgets what it knew and afterwards
knows the line starts of that text, which need not be those of the buffer that it goes on with. A
request then takes the buffer's text up at the last line start of the other text before its line.

* `Styler.Knows`: the checkpoints of a styler are all the line starts of a text, each with its
  state. They are after a text was styled as a whole (`exists_styleText`).
* `Registry.StandsInFor`: the states of a text at its line starts lead, over the lines of another
  text, to states from which that text has its own colours.
* `Session.Faithful`: a session whose requests up to line starts paint as the whole text styled from
  scratch.
* `faithful_styleText_iff`: **after a text was styled aside a session is faithful if and only if
  that text stands in for its own.** Two texts with equal states at the line starts of one of them
  do (`standsInFor_of_states`); a line of a script aside is enough to break a session
  (`styleText_misleads`).
-/

namespace TemplateStyler

open Text

variable {r : Registry}

/-! ### What is known of a text -/

namespace Styler

/-- A styler whose checkpoints are all the line starts of a text, each with its state. -/
structure Knows (st : Styler) (r : Registry) (text : Text) : Prop extends st.Exact r text where
  complete : ∀ p, 0 < p → IsLineStart text p → st.checkpoints.get? p = some (r.stateAt text p)

/-- **Styling a whole text from scratch** never fails, gives the spans of the text and leaves behind
what is known of it, whatever was known before. -/
theorem exists_styleText (hr : r.OnOneLine) {st : Styler} (hregistry : st.registry = r)
    (hgrammar : st.grammar = r.grammar) (text : Text) :
    ∃ spans st', st.styleText text = .ok (spans, st') ∧ r.styleText text = .ok spans ∧
      st'.Knows r text := by
  have hfresh : { st with checkpoints := {}, painted := {} } = ofRegistry r := by
    rw [hregistry, hgrammar]
    rfl
  have hsame : { ofRegistry r with checkpoints := {}, painted := {} } = ofRegistry r := rfl
  obtain ⟨pass, st', hstyle, -, -, hregistry', hgrammar', hcheckpoints⟩ :=
    @style_of_resume r (ofRegistry r) .initial 0 (byteSize text) [] text State.consistent_initial
      rfl rfl rfl
  rw [List.nil_append] at hstyle
  rw [List.nil_append, floorBoundary_of_byteSize_le (Nat.le_refl _), Registry.takenUp_nil,
    ← Registry.headAfter_nil] at hcheckpoints
  have hmarks : ∀ m ∈ (r.headAfter [] text (byteSize text)).lineStarts,
      m.2 = r.stateAt text m.1 := by
    intro m hm
    obtain ⟨x, y, rfl, -, -, rfl⟩ := Registry.exists_of_mem_lineStarts hr wholeLines_nil hm
    exact (r.stateAt_append x y).symm
  refine ⟨pass.spans, st', ?_, ?_, ⟨hregistry', hgrammar', fun p s hget => ?_⟩,
    fun p hp hline => ?_⟩
  · rw [styleText, hfresh, hstyle]
    rfl
  · rw [Registry.styleText, styleText, hsame, hstyle]
    rfl
  · rw [hcheckpoints] at hget
    exact (exact_ofRegistry r ([] ++ text)).checkpoints_insertAll hr wholeLines_nil hget
  · obtain ⟨x, y, rfl, rfl, hx⟩ := isLineStart_iff.1 hline
    have hne : x ≠ [] := by
      rintro rfl
      exact absurd hp (Nat.lt_irrefl 0)
    have hmem := Registry.mem_lineStarts_headAfter hr wholeLines_nil hne hx y
      (hline.le : byteSize x ≤ byteSize (x ++ y))
    rw [hcheckpoints]
    exact Marks.get?_insertAll_of_mem hmarks hmem _

/-- A styler that knows a text resumes at the last line start of that text which does not lie behind
the line of the position, whichever text the line is of. -/
theorem Knows.seed {st : Styler} {other : Text} (h : st.Knows r other) {whole line : Text}
    (hwhole : WholeLines whole) (hline : '\n' ∉ line) (rest : Text) :
    ∃ p, IsGreatest {pos | IsLineStart other pos ∧ pos ≤ byteSize whole} p ∧
      st.seed (whole ++ line ++ rest) (byteSize (whole ++ line)) = (p, r.stateAt other p) := by
  rw [Styler.seed, lineStart_append hwhole hline]
  cases hnearest : st.checkpoints.nearest? (byteSize whole) with
  | none =>
    refine ⟨0, ⟨⟨isLineStart_iff.2 ⟨[], other, rfl, rfl, wholeLines_nil⟩, Nat.zero_le _⟩, ?_⟩, ?_⟩
    · rintro pos ⟨hstart, hle⟩
      by_contra hpos
      obtain ⟨e, he, -⟩ :=
        Marks.exists_nearest? (h.complete pos (Nat.lt_of_not_le hpos) hstart) hle
      rw [hnearest] at he
      cases he
    · have hinitial := r.stateAt_append [] other
      rw [List.nil_append, byteSize_nil, Registry.stateAfter_nil] at hinitial
      rw [hinitial]
      rfl
  | some m =>
    obtain ⟨p, s⟩ := m
    obtain ⟨hle, hget⟩ := Marks.nearest?_get? hnearest
    obtain ⟨-, hstart, rfl⟩ := h.checkpoints p s hget
    refine ⟨p, ⟨⟨hstart, hle⟩, ?_⟩, rfl⟩
    rintro pos ⟨hstart', hle'⟩
    rcases Nat.eq_zero_or_pos pos with rfl | hpos
    · exact Nat.zero_le _
    · obtain ⟨e, he, hlast⟩ := Marks.exists_nearest? (h.complete pos hpos hstart') hle'
      rw [hnearest] at he
      cases he
      exact hlast

end Styler

/-! ### Requests behind another text -/

/-- Where the lines of a text are taken up in the states that another text has at its line starts,
each line and all that follows it has its own colours. -/
def Registry.StandsInFor (r : Registry) (other text : Text) : Prop :=
  ∀ whole rest, text = whole ++ rest → WholeLines whole →
    ∃ before part, whole = before ++ part ∧
      IsGreatest {pos | IsLineStart other pos ∧ pos ≤ byteSize whole} (byteSize before) ∧
      r.coloursFrom (r.leadsTo (r.stateAt other (byteSize before)) before part) rest =
        r.coloursFrom (r.stateAfter whole) rest

/-- A text whose line starts, as far as another text reaches, are line starts of it with the same
states stands in for that text. -/
theorem Registry.standsInFor_of_states (hr : r.OnOneLine) {other text : Text}
    (h : ∀ p, IsLineStart other p → p ≤ byteSize text →
      IsLineStart text p ∧ r.stateAt other p = r.stateAt text p) : r.StandsInFor other text := by
  rintro whole rest rfl hwhole
  have hzero : IsLineStart other 0 := isLineStart_iff.2 ⟨[], other, rfl, rfl, wholeLines_nil⟩
  have hle := Nat.findGreatest_le (P := IsLineStart other) (byteSize whole)
  have hstart : IsLineStart other (Nat.findGreatest (IsLineStart other) (byteSize whole)) :=
    Nat.findGreatest_spec (Nat.zero_le _) hzero
  obtain ⟨hline, hstate⟩ := h _ hstart (by rw [byteSize_append]; omega)
  obtain ⟨before, part, rfl, hbefore, hwhole'⟩ := hline.exists_prefix hle
  refine ⟨before, part, rfl, hbefore ▸ ⟨⟨hstart, hle⟩, fun pos hpos =>
    Nat.le_findGreatest hpos.2 hpos.1⟩, ?_⟩
  have hflag : before.getLast?.all (· == '\n') = true := hwhole'
  rw [hbefore, hstate, ← hbefore, List.append_assoc, stateAt_append, leadsTo, hflag,
    ← stateAfter_append hr hwhole']

namespace Session

/-- Every request up to a line start or the end of the text is answered, and paints each byte of its
range as the text styled from scratch. -/
def Faithful (s : Session) (r : Registry) : Prop :=
  ∀ start stop, IsLineStart s.buffer.text stop ∨ stop = s.buffer.size →
    ∃ (pass : Pass) (s' : Session) (whole : Pass × Session), s.style start stop = .ok (pass, s') ∧
      (ofText r s.buffer.text).style 0 s.buffer.size = .ok whole ∧
      ∀ pos, (s.bounds start stop).1 ≤ pos → pos < (s.bounds start stop).2 →
        s'.buffer.styleAt pos = whole.2.buffer.styleAt pos

/-- **A request that takes the text up before a line start**, in whatever state, paints what follows
the line start in its colours from the state there. -/
theorem style_of_resume (hr : r.OnOneLine) {s : Session} (hregistry : s.styler.registry = r)
    (hgrammar : s.styler.grammar = r.grammar) (hbuffer : s.buffer.Sound)
    (hfit : s.buffer.size < Size.bound) {state : State} (hstate : state.Consistent)
    (hnot : ¬ state.InLineString) {before part rest : Text}
    (htext : s.buffer.text = before ++ part ++ rest) (hwhole : WholeLines (before ++ part))
    {start stop : Nat}
    (hseed : s.styler.seed s.buffer.text (s.bounds start stop).1 = (byteSize before, state))
    (hfirst : byteSize (before ++ part) ≤ (s.bounds start stop).1)
    (hlast : IsLineStart s.buffer.text (s.bounds start stop).2 ∨
      (s.bounds start stop).2 = s.buffer.size) :
    ∃ pass s', s.style start stop = .ok (pass, s') ∧
      ∀ pos, (s.bounds start stop).1 ≤ pos → pos < (s.bounds start stop).2 →
        s'.buffer.styleAt pos = (r.coloursFrom (r.leadsTo state before part) rest)[pos -
          byteSize (before ++ part)]? := by
  obtain ⟨hle, hle'⟩ := s.bounds_le start stop
  have hlength : s.buffer.styles.length = s.buffer.size := hbuffer
  rw [bounds, htext, List.append_assoc] at hseed
  obtain ⟨pass, st, hstyle, hstart, hspans, -⟩ :=
    Styler.style_of_resume hstate hregistry hgrammar hseed
  rw [← List.append_assoc, ← htext] at hstyle hstart hspans
  have hcolours : Span.colours pass.spans =
      ((r.coloursFrom (r.leadsTo state before part) rest).take
        ((s.bounds start stop).2 - byteSize (before ++ part))).drop
        ((s.bounds start stop).1 - byteSize (before ++ part)) := by
    rw [Buffer.size, htext] at hlast
    rw [hspans, hstart]
    exact Registry.colours_spans_takenUp hr hstate hnot hwhole hfirst hle hlast
  have htotal : Span.total pass.spans =
      (s.bounds start stop).2 - (s.bounds start stop).1 := by
    have hrest : s.buffer.size = byteSize (before ++ part) + byteSize rest := by
      rw [Buffer.size, htext, byteSize_append]
    rw [← Span.length_colours, hcolours, List.length_drop, List.length_take,
      Registry.length_coloursFrom]
    omega
  have hstart' : pass.start = (s.bounds start stop).1 := hstart
  refine ⟨pass, _, style_eq_ok_iff.2 ⟨st, _, hstyle, Buffer.paint_eq (by omega) (by omega), rfl⟩,
    fun pos hpos hpos' => ?_⟩
  rw [styleAt_painted rfl (by rw [List.length_take]; omega) (hstart' ▸ hpos)
    (by rw [Span.length_colours]; omega), hcolours, List.getElem?_drop,
    List.getElem?_take_of_lt (by omega)]
  congr 1
  omega

/-- A text styled from scratch shows its colours. -/
theorem exists_scratch (hr : r.OnOneLine) {text : Text} (hfit : byteSize text < Size.bound) :
    ∃ whole, (ofText r text).style 0 (byteSize text) = .ok whole ∧
      ∀ pos, whole.2.buffer.styleAt pos = (r.colours text)[pos]? := by
  obtain ⟨pass, whole, hwhole, hcolours⟩ := (sound_ofText r text).style_all hr hfit
  exact ⟨(pass, whole), hwhole, styleAt_of_styles hcolours⟩

section

variable {s : Session} {other : Text}

/-- If the text that a styler knows stands in for the one of the buffer, requests up to line starts
paint as from scratch. -/
theorem faithful_of_standsInFor (hr : r.OnOneLine) (hknows : s.styler.Knows r other)
    (hbuffer : s.buffer.Sound) (hfit : s.buffer.size < Size.bound)
    (h : r.StandsInFor other s.buffer.text) : s.Faithful r := by
  intro start stop hstop
  obtain ⟨scratch, hscratch, hcolours⟩ := exists_scratch hr hfit
  have hlast : (s.bounds start stop).2 = stop := floorBoundary_eq_self hstop
  obtain ⟨c, d, hcd, hc⟩ := exists_floorBoundary s.buffer.text
    (min start (floorBoundary s.buffer.text stop))
  obtain ⟨whole, line, rfl, hwhole, hline, -⟩ := exists_lineStart c d
  have htext : s.buffer.text = whole ++ (line ++ d) := by rw [hcd, List.append_assoc]
  obtain ⟨before, part, rfl, hgreatest, hsame⟩ := h whole (line ++ d) htext hwhole
  obtain ⟨p, hp, hseed⟩ := hknows.seed hwhole hline d
  obtain rfl := hp.unique hgreatest
  have hfirst : byteSize (before ++ part ++ line) = (s.bounds start stop).1 := hc
  rw [← hcd, hfirst] at hseed
  rw [byteSize_append _ line] at hfirst
  obtain ⟨pass, s', hstyle, hshown⟩ := style_of_resume hr hknows.registry hknows.grammar hbuffer
    hfit (r.consistent_stateAt _ _) (Registry.not_inLineString_stateAt hr hp.1.1) htext hwhole hseed
    (by omega) (by rw [hlast]; exact hstop)
  refine ⟨pass, s', scratch, hstyle, hscratch, fun pos hpos hpos' => ?_⟩
  rw [hshown pos hpos hpos', hsame, hcolours, htext,
    Registry.getElem?_colours_behind hr hwhole (line ++ d) (by omega)]

/-- A styler resumes at a position of the buffer's text wherever its requests are answered. -/
theorem isBoundary_of_style {start stop : Nat} {pass : Pass} {s' : Session}
    (hstyle : s.style start stop = .ok (pass, s')) {p : Nat} {state : State}
    (hseed : s.styler.seed s.buffer.text (s.bounds start stop).1 = (p, state))
    (hle : p ≤ s.buffer.size) : isBoundary s.buffer.text p = true := by
  rcases Nat.lt_or_eq_of_le hle with hlt | rfl
  · by_contra hnot
    have herror := Styler.style_eq_error hseed hlt (by simpa using hnot)
    obtain ⟨st, b, hok, -⟩ := style_eq_ok_iff.1 hstyle
    cases hok.symm.trans herror
  · exact isBoundary_iff.2 ⟨s.buffer.text, [], (List.append_nil _).symm, rfl⟩

/-- If requests up to line starts paint as from scratch, those from each line start to the end of
the text show that the other text stands in. -/
theorem Faithful.standsInFor (hr : r.OnOneLine) (h : s.Faithful r) (hknows : s.styler.Knows r other)
    (hbuffer : s.buffer.Sound) (hfit : s.buffer.size < Size.bound) :
    r.StandsInFor other s.buffer.text := by
  intro whole rest htext hwhole
  obtain ⟨scratch, hscratch, hcolours⟩ := exists_scratch hr hfit
  have hsize : s.buffer.size = byteSize whole + byteSize rest := by
    rw [Buffer.size, htext, byteSize_append]
  have hfirst : (s.bounds (byteSize whole) s.buffer.size).1 = byteSize whole := by
    have hlast : floorBoundary s.buffer.text s.buffer.size = s.buffer.size :=
      floorBoundary_of_byteSize_le (Nat.le_refl _)
    rw [bounds, hlast, Nat.min_eq_left (by omega), htext, floorBoundary_append]
  have hlast : (s.bounds (byteSize whole) s.buffer.size).2 = s.buffer.size :=
    floorBoundary_eq_self (Or.inr rfl)
  obtain ⟨pass, s', scratch', hstyle, hscratch', hpaints⟩ :=
    h (byteSize whole) s.buffer.size (Or.inr rfl)
  obtain rfl := Except.ok.inj (hscratch.symm.trans hscratch')
  obtain ⟨p, hp, hseed⟩ := hknows.seed hwhole List.not_mem_nil rest
  have hle : p ≤ byteSize whole := hp.1.2
  rw [List.append_nil, ← htext, ← hfirst] at hseed
  obtain ⟨before, after, hsplit, rfl⟩ :=
    isBoundary_iff.1 (isBoundary_of_style hstyle hseed (by omega))
  obtain ⟨part, rfl, -⟩ := prefix_of_byteSize_le (hsplit.symm.trans htext) hle
  obtain ⟨pass', s'', hstyle', hshown⟩ := style_of_resume hr hknows.registry hknows.grammar hbuffer
    hfit (r.consistent_stateAt _ _) (Registry.not_inLineString_stateAt hr hp.1.1) htext hwhole hseed
    hfirst.ge (Or.inr hlast)
  obtain ⟨rfl, rfl⟩ := Prod.mk.inj (Except.ok.inj (hstyle.symm.trans hstyle'))
  rw [hfirst, hlast] at hpaints hshown
  refine ⟨before, part, rfl, hp, List.ext_getElem? fun i => ?_⟩
  by_cases hi : i < byteSize rest
  · have hsame := hpaints (byteSize (before ++ part) + i) (Nat.le_add_right _ _) (by omega)
    rwa [hshown _ (Nat.le_add_right _ _) (by omega), hcolours, htext,
      Registry.getElem?_colours_behind hr hwhole rest (Nat.le_add_right _ _),
      Nat.add_sub_cancel_left] at hsame
  · rw [List.getElem?_eq_none (by rw [Registry.length_coloursFrom]; omega),
      List.getElem?_eq_none (by rw [Registry.length_coloursFrom]; omega)]

end

/-- **After a text was styled aside, a session is faithful if and only if that text stands in for
its own**, whatever was known and painted before. -/
theorem faithful_styleText_iff (hr : r.OnOneLine) {s : Session} (hregistry : s.styler.registry = r)
    (hgrammar : s.styler.grammar = r.grammar) (hbuffer : s.buffer.Sound)
    (hfit : s.buffer.size < Size.bound) (other : Text) :
    ∃ spans st, s.styler.styleText other = .ok (spans, st) ∧ r.styleText other = .ok spans ∧
      ((⟨st, s.buffer⟩ : Session).Faithful r ↔ r.StandsInFor other s.buffer.text) := by
  obtain ⟨spans, st, hstyled, hspans, hknows⟩ := Styler.exists_styleText hr hregistry hgrammar other
  exact ⟨spans, st, hstyled, hspans,
    ⟨fun h => Faithful.standsInFor (s := ⟨st, s.buffer⟩) hr h hknows hbuffer hfit,
      faithful_of_standsInFor (s := ⟨st, s.buffer⟩) hr hknows hbuffer hfit⟩⟩

/-- A script that is styled aside, while the buffer holds a longer one. -/
theorem faithful_styleText_iff_script :
    ∃ (pass : Pass) (s : Session) (spans : List Span) (st : Styler), Registry.OnOneLine {} ∧
      (ofText {} "....\ny\n....\n".toList).style 0 12 = .ok (pass, s) ∧
      s.styler.styleText "....\nx\n".toList = .ok (spans, st) ∧
      Faithful ⟨st, s.buffer⟩ {} := by
  have hr : Registry.OnOneLine {} := ⟨by decide, by decide⟩
  have hsound := sound_ofText {} "....\ny\n....\n".toList
  obtain ⟨pass, s, hstyle, -⟩ := hsound.style_all hr (by decide)
  obtain ⟨hsound', htext, -⟩ := hsound.of_style hr hstyle
  have hfit : s.buffer.size < Size.bound := by
    rw [Buffer.size, htext]
    decide
  obtain ⟨spans, st, hstyled, -, hiff⟩ := faithful_styleText_iff hr hsound'.exact.registry
    hsound'.exact.grammar hsound'.buffer hfit "....\nx\n".toList
  refine ⟨pass, s, spans, st, hr, hstyle, hstyled, hiff.2 ?_⟩
  rw [htext]
  have hstates : ∀ p < 8, IsLineStart "....\nx\n".toList p →
      IsLineStart "....\ny\n....\n".toList p ∧
        Registry.stateAt {} "....\nx\n".toList p =
          Registry.stateAt {} "....\ny\n....\n".toList p := by
    decide +kernel
  exact Registry.standsInFor_of_states hr fun p hp _ => hstates p (Nat.lt_succ_of_le hp.le) hp

/-- The delimiter of a script is styled aside, and a line of markup is painted as one of a script. A
line start within a character of the buffer's text makes a request fail. -/
theorem styleText_misleads :
    Registry.OnOneLine {} ∧
    (∃ (whole part : Pass × Session) (spans : List Span) (st : Styler),
      IsLineStart "abcd\nx\n".toList 5 ∧ byteSize "abcd\nx\n".toList = 7 ∧
      (ofText {} "abcd\nx\n".toList).style 0 7 = .ok whole ∧
      whole.2.styler.styleText "....\n".toList = .ok (spans, st) ∧
      (⟨st, whole.2.buffer⟩ : Session).style 5 7 = .ok part ∧
      whole.2.buffer.styleAt 5 = some .plain ∧ part.2.buffer.styleAt 5 = some .scriptBody) ∧
    ∃ (whole : Pass × Session) (spans : List Span) (st : Styler),
      IsLineStart "é\nx".toList 3 ∧ byteSize "é\nx".toList = 4 ∧
      (ofText {} "é\nx".toList).style 0 4 = .ok whole ∧
      whole.2.styler.styleText "\n".toList = .ok (spans, st) ∧
      (⟨st, whole.2.buffer⟩ : Session).style 3 4 = .error .badPosition := by
  refine ⟨⟨by decide, by decide⟩, ?_, ?_⟩
  · have hrun : (do
        let whole ← (ofText {} "abcd\nx\n".toList).style 0 7
        let aside ← whole.2.styler.styleText "....\n".toList
        let part ← (⟨aside.2, whole.2.buffer⟩ : Session).style 5 7
        return (whole.2.buffer.styleAt 5, part.2.buffer.styleAt 5) :
          Except Fault (Option Style × Option Style)).toOption =
        some (some .plain, some .scriptBody) := by
      decide +kernel
    obtain ⟨whole, hwhole, ⟨spans, st⟩, haside, part, hpart, heq⟩ := by
      simpa only [Fault.bind_eq_ok_iff] using Fault.eq_ok_of_toOption hrun
    obtain ⟨hbefore, hafter⟩ := Prod.mk.inj (Except.ok.inj heq)
    exact ⟨whole, part, spans, st, by decide, by decide, hwhole, haside, hpart, hbefore, hafter⟩
  · have hrun : (do
        let whole ← (ofText {} "é\nx".toList).style 0 4
        let aside ← whole.2.styler.styleText "\n".toList
        return decide ((⟨aside.2, whole.2.buffer⟩ : Session).style 3 4 = .error .badPosition) :
          Except Fault Bool).toOption = some true := by
      decide +kernel
    obtain ⟨whole, hwhole, ⟨spans, st⟩, haside, heq⟩ := by
      simpa only [Fault.bind_eq_ok_iff] using Fault.eq_ok_of_toOption hrun
    exact ⟨whole, spans, st, by decide, by decide, hwhole, haside,
      of_decide_eq_true (Except.ok.inj heq)⟩

end Session

end TemplateStyler
