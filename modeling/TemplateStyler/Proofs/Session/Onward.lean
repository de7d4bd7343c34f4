import TemplateStyler.Proofs.Session.Settle

/-!
# Requests on a new session

A request on a new session may end anywhere, also within a lexeme or a literal. Nothing was painted
behind it, so that no pass after it is the last one within the text: they go on to its end.

* `Session.shownUpTo`: what the buffer shows of the text up to a position, by the end of the request
  and the passes after it. `Session.Onward`: the session while these passes go on.
* `Onward.advances`: **one pass ends at the end of the text, or asks for the pass that follows.**
* `shown_of_settle`: **a request and the passes after it show every byte from its start on as in the
  whole text styled from scratch**, but for the bytes of a literal that is cut off behind its end,
  and if it is not empty. `settle_differs` shows why these are left out.
-/

namespace TemplateStyler

open Text Lexeme

variable {r : Registry}

namespace Session

/-! ### Passes where nothing was painted -/

theorem bounds_of_isBoundary {s : Session} {start stop : Nat}
    (hstart : isBoundary s.buffer.text start = true) (hstop : isBoundary s.buffer.text stop = true)
    (hle : start ≤ stop) : s.bounds start stop = (start, stop) := by
  rw [bounds, floorBoundary_of_isBoundary hstop, Nat.min_eq_left hle,
    floorBoundary_of_isBoundary hstart]

/-- **A pass with nothing painted behind its start** asks for the next one, unless it is empty or
ends the text. -/
theorem Sound.exists_pass_ahead {s : Session} (hr : r.OnOneLine) (h : s.Sound r)
    (hfit : s.buffer.size < Size.bound) {start stop : Nat}
    (hstart : isBoundary s.buffer.text start = true) (hstop : isBoundary s.buffer.text stop = true)
    (hle : start ≤ stop) (hahead : ∀ p, start ≤ p → s.styler.painted.get? p = none) :
    ∃ pass s', s.style start stop = .ok (pass, s') ∧ s'.Sound r ∧
      s'.buffer.text = s.buffer.text ∧ (∀ p, stop ≤ p → s'.styler.painted.get? p = none) ∧
      s'.buffer.styles = s.buffer.styles.take start ++
        (r.shownIn s.buffer.text start stop).map some ++ s.buffer.styles.drop stop ∧
      pass.restyleFrom = if start < stop ∧ stop < s.buffer.size then some stop else none := by
  obtain ⟨pass, s', hstyle, hstyles⟩ := h.style hr hfit start stop
  obtain ⟨hsound, htext, hpasses⟩ := h.of_style hr hstyle
  have hpainted := hpasses.painted
  have hrestyle := hpasses.restyleFrom
  rw [bounds_of_isBoundary hstart hstop hle] at hpainted hrestyle hstyles
  refine ⟨pass, s', hstyle, hsound, htext, fun p hp => ?_, hstyles, ?_⟩
  · rw [hpainted, if_neg (by omega)]
    exact hahead p (by omega)
  · rw [hrestyle, hahead stop hle]
    refine if_congr ?_ rfl rfl
    simp [Buffer.size]

/-! ### Passes behind a request -/

/-- What is shown of a text up to a position when a request was made and the passes after it have
come there. -/
def shownUpTo (r : Registry) (text : Text) (start stop pos : Nat) : List (Option Style) :=
  List.replicate start none ++
    (r.shownIn text start stop ++ ((r.colours text).take pos).drop stop).map some

/-- The session of a text `t` on which the passes behind a request have come to a position. -/
structure Onward (r : Registry) (t : Text) (start stop : Nat) (s : Session) (pos : Nat) :
    Prop where
  sound : s.Sound r
  text : s.buffer.text = t
  boundary : isBoundary t pos = true
  le : stop ≤ pos
  lt : pos < byteSize t
  /-- Nothing is painted yet behind the position. -/
  ahead : ∀ p, pos ≤ p → s.styler.painted.get? p = none
  styles : s.buffer.styles.take pos = shownUpTo r t start stop pos

/-- The session of a text when they have come to its end. -/
def Arrived (r : Registry) (t : Text) (start stop : Nat) (s : Session) : Prop :=
  s.buffer.styles = shownUpTo r t start stop (byteSize t)

theorem drop_take_append {α : Type} (l : List α) {stop pos last : Nat} (hstop : stop ≤ pos)
    (hpos : pos ≤ last) (hlast : last ≤ l.length) :
    (l.take pos).drop stop ++ (l.take last).drop pos = (l.take last).drop stop := by
  have hpart : l.take pos = (l.take last).take pos := by rw [List.take_take, Nat.min_eq_left hpos]
  have hlength : ((l.take last).take pos).length = pos := by
    rw [List.length_take, List.length_take]
    omega
  rw [hpart, ← List.drop_append_of_le_length (by omega), List.take_append_drop]

/-- A pass to a line start, or to the end of the text, shows the text up to there. -/
theorem Onward.take_styles {s s' : Session} (hr : r.OnOneLine) {t : Text}
    {start stop pos last : Nat} (h : Onward r t start stop s pos) (hle : pos ≤ last)
    (hlast : IsLineStart t last ∨ last = byteSize t)
    (hstyles : s'.buffer.styles = s.buffer.styles.take pos ++
      (r.shownIn t pos last).map some ++ s.buffer.styles.drop last) :
    s'.buffer.styles.take last = shownUpTo r t start stop last := by
  have hsize : last ≤ byteSize t := by
    rcases hlast with hline | rfl
    · exact hline.le
    · exact Nat.le_refl _
  have hlength : s.buffer.styles.length = byteSize t := by
    rw [← h.text]
    exact h.sound.buffer
  have hfront : (s.buffer.styles.take pos ++ (r.shownIn t pos last).map some).length = last := by
    rw [List.length_append, List.length_take, List.length_map, Registry.length_shownIn hsize]
    omega
  have hjoin := drop_take_append (r.colours t) h.le hle (by rwa [Registry.length_colours])
  rw [hstyles, List.take_left' hfront, h.styles, Registry.shownIn_eq hr hlast, shownUpTo,
    List.append_assoc, ← List.map_append, List.append_assoc, hjoin]
  rfl

/-- **One pass behind a request** ends at the end of the text, or asks for the pass that follows. -/
theorem Onward.advances {s : Session} (hr : r.OnOneLine) {t : Text} (hfit : byteSize t < Size.bound)
    {start stop pos : Nat} (h : Onward r t start stop s pos) :
    Advances (Onward r t start stop) (fun s _ => Arrived r t start stop s) s pos
      (nextLineStart s.buffer.text pos) := by
  obtain ⟨a, b, rfl, rfl⟩ := isBoundary_iff.1 h.boundary
  obtain ⟨last, hlast⟩ : ∃ last, nextLineStart (a ++ b) (byteSize a) = last := ⟨_, rfl⟩
  have hends := nextLineStart_cases a b
  rw [hlast] at hends
  have hlt : byteSize a < last := by
    rcases hends with rfl | hline
    · exact h.lt
    · exact hline.1
  have hline : IsLineStart (a ++ b) last ∨ last = byteSize (a ++ b) :=
    hends.symm.imp_left And.right
  have hboundary : isBoundary (a ++ b) last = true := by
    rw [← floorBoundary_eq_self hline]
    exact isBoundary_floorBoundary _ _
  have hstart := h.boundary
  rw [← h.text] at hfit hboundary hstart
  obtain ⟨pass, s', hstyle, hsound, htext, hahead, hstyles, hrestyle⟩ :=
    h.sound.exists_pass_ahead hr hfit hstart hboundary (Nat.le_of_lt hlt) h.ahead
  rw [h.text] at hboundary hstyles htext
  have htake := h.take_styles hr (Nat.le_of_lt hlt) hline hstyles
  rw [h.text, hlast]
  refine ⟨pass, s', hstyle, htext.trans h.text.symm, ?_⟩
  rw [Buffer.size, h.text] at hrestyle ⊢
  by_cases hsize : last < byteSize (a ++ b)
  · exact Or.inr ⟨by rw [hrestyle, if_pos ⟨hlt, hsize⟩], hlt, hsize, hsound, htext, hboundary,
      Nat.le_trans h.le (Nat.le_of_lt hlt), hsize, hahead, htake⟩
  · have hend : last = byteSize (a ++ b) := by
      rcases hline with hline | hend
      · exact Nat.le_antisymm hline.le (Nat.le_of_not_lt hsize)
      · exact hend
    have hall : s'.buffer.styles.length ≤ last := by
      rw [hsound.buffer, Buffer.size, htext, hend]
    rw [List.take_of_length_le hall, hend] at htake
    exact Or.inl ⟨by rw [hrestyle, if_neg fun hnot => hsize hnot.2], htake⟩

/-! ### The request -/

/-- **A request on a new session** that is not empty ends at the end of the text, or asks for the
pass that follows. -/
theorem advances_ofText (hr : r.OnOneLine) {t : Text} (hfit : byteSize t < Size.bound)
    {start stop : Nat} (hstart : isBoundary t start = true) (hstop : isBoundary t stop = true)
    (hlt : start < stop) :
    Advances (Onward r t start stop) (fun s _ => Arrived r t start stop s) (ofText r t) start
      stop := by
  obtain ⟨pass, s, hstyle, hsound, htext, hahead, hstyles, hrestyle⟩ :=
    (sound_ofText r t).exists_pass_ahead hr hfit hstart hstop (Nat.le_of_lt hlt) fun _ _ => rfl
  have hsize : stop ≤ byteSize t := by
    obtain ⟨a, b, rfl, rfl⟩ := isBoundary_iff.1 hstop
    rw [byteSize_append]
    omega
  have hnone : ((r.colours t).take stop).drop stop = [] :=
    List.drop_eq_nil_of_le (List.length_take_le _ _)
  have htake : s.buffer.styles.take stop = shownUpTo r t start stop stop := by
    have hfront : (List.replicate start (none : Option Style) ++
        (r.shownIn t start stop).map some).length = stop := by
      rw [List.length_append, List.length_replicate, List.length_map,
        Registry.length_shownIn hsize]
      omega
    rw [hstyles, shownUpTo, hnone, List.append_nil]
    simp only [ofText, Buffer.ofText, List.take_replicate,
      Nat.min_eq_left (Nat.le_of_lt (Nat.lt_of_lt_of_le hlt hsize))]
    exact List.take_left' hfront
  refine ⟨pass, s, hstyle, htext, ?_⟩
  by_cases hend : stop < byteSize t
  · exact Or.inr ⟨hrestyle.trans (if_pos ⟨hlt, hend⟩), hlt, hend, hsound, htext, hstop,
      Nat.le_refl _, hend, hahead, htake⟩
  · have hend' : stop = byteSize t := by omega
    have hall : s.buffer.styles.length ≤ stop := by
      rw [hsound.buffer, Buffer.size, htext, hend']
      exact Nat.le_refl _
    have harrived : Arrived r t start stop s := by
      rw [Arrived, ← hend', ← htake, List.take_of_length_le hall]
    exact Or.inl ⟨hrestyle.trans (if_neg fun hnot => hend hnot.2), harrived⟩

/-- A request that is empty paints nothing and asks for nothing. -/
theorem settle_empty (hr : r.OnOneLine) {t : Text} (hfit : byteSize t < Size.bound) {pos : Nat}
    (hpos : isBoundary t pos = true) :
    ∃ pass s, (ofText r t).settle pos pos = .ok ([pass], s) ∧ pass.restyleFrom = none ∧
      s.buffer.styles = (ofText r t).buffer.styles := by
  obtain ⟨pass, s, hstyle, -, -, -, hstyles, hrestyle⟩ :=
    (sound_ofText r t).exists_pass_ahead hr hfit hpos hpos (Nat.le_refl _) fun _ _ => rfl
  rw [if_neg (by omega)] at hrestyle
  have hshown : r.shownIn t pos pos = [] := List.drop_eq_nil_of_le (List.length_take_le _ _)
  refine ⟨pass, s, ?_, hrestyle, ?_⟩
  · rw [settle, hstyle, Fault.ok_bind]
    simp only [hrestyle]
    rfl
  · rw [hstyles, show (ofText r t).buffer.text = t from rfl, hshown, List.map_nil,
      List.append_nil, List.take_append_drop]

/-! ### The styles of bytes -/

theorem styleAt_behind {b : Buffer} {front : List (Option Style)} {styles : List Style}
    {first pos : Nat} (hb : b.styles = front ++ styles.map some) (hfront : front.length = first)
    (hfirst : first ≤ pos) : b.styleAt pos = styles[pos - first]? := by
  rw [Buffer.styleAt, hb, List.getElem?_append_right (by omega), hfront, List.getElem?_map]
  cases styles[pos - first]? <;> rfl

/-- Behind the request every byte is shown as in the whole text. -/
theorem Arrived.styleAt_of_stop_le {s : Session} {t : Text} {start stop pos : Nat}
    (h : Arrived r t start stop s) (hle : start ≤ stop) (hstop : stop ≤ byteSize t)
    (hpos : stop ≤ pos) : s.buffer.styleAt pos = (r.colours t)[pos]? := by
  have hlength := Registry.length_shownIn (r := r) hstop start
  rw [styleAt_behind h List.length_replicate (Nat.le_trans hle hpos),
    List.getElem?_append_right (by omega), List.getElem?_drop, List.take_of_length_le (by simp)]
  congr 1
  omega

/-- Within the request every byte is shown as in the part of the text that the request sees. -/
theorem Arrived.styleAt_of_lt_stop {s : Session} {t : Text} {start stop pos : Nat}
    (h : Arrived r t start stop s) (hstop : stop ≤ byteSize t) (hstart : start ≤ pos)
    (hpos : pos < stop) : s.buffer.styleAt pos = (r.head t stop).colours[pos]? := by
  have hlength := Registry.length_shownIn (r := r) hstop start
  rw [styleAt_behind h List.length_replicate hstart, List.getElem?_append_left (by omega),
    Registry.getElem?_shownIn t hstart hpos]

/-- **A request on a new session shows every byte from its start on** as in the whole text styled
from scratch, once the passes that it asks for have ended. Left out are the bytes of a literal which
the request ends in, and which its line cuts off behind that end. An empty request shows nothing. -/
theorem shown_of_settle (hr : r.OnOneLine) {text : Text} (hfit : byteSize text < Size.bound)
    {start stop : Nat} (hstart : isBoundary text start = true) (hstop : isBoundary text stop = true)
    (hle : start ≤ stop) :
    ∃ (passes : List Pass) (s : Session) (last : Pass) (whole : Pass × Session) (t : Trace),
      (ofText r text).settle start stop = .ok (passes, s) ∧
      passes.getLast? = some last ∧ last.restyleFrom = none ∧
      (ofText r text).style 0 (byteSize text) = .ok whole ∧
      r.trace .initial (r.grammar.scanText text) = .ok t ∧
      (start < stop → ∀ pos, start ≤ pos →
        (pos < stop → ∀ opening, ¬ t.CutOffBehind stop pos opening) →
        s.buffer.styleAt pos = whole.2.buffer.styleAt pos) ∧
      (start = stop → passes = [last] ∧ s.buffer.styles = (ofText r text).buffer.styles) := by
  obtain ⟨wholePass, whole, hwhole, hcolours⟩ := (sound_ofText r text).style_all hr hfit
  have hthere := styleAt_of_styles hcolours
  have hsize : stop ≤ byteSize text := by
    rw [← floorBoundary_of_isBoundary hstop]
    exact floorBoundary_le_byteSize text stop
  rcases Nat.lt_or_eq_of_le hle with hlt | rfl
  · obtain ⟨passes, s, last, hsettle, hlast, hnone, harrived⟩ :=
      settle_of_advances (fun s pos h => h.advances hr hfit)
        (advances_ofText hr hfit hstart hstop hlt)
    refine ⟨passes, s, last, (wholePass, whole), r.course text, hsettle, hlast, hnone, hwhole,
      r.trace_eq_entries State.consistent_initial _, fun _ pos hpos hnot => ?_,
      fun heq => absurd heq (Nat.ne_of_lt hlt)⟩
    rw [hthere]
    by_cases hbefore : pos < stop
    · rw [harrived.styleAt_of_lt_stop hsize hpos hbefore]
      refine Registry.getElem?_head_of_not_cutOff hbefore hsize ?_
      -- a newline that cuts off a literal around the byte lies within the request
      intro opening newline hcut hopening hnewline
      by_contra hge
      exact hnot hbefore opening ⟨newline, hcut, hopening, hnewline, Nat.le_of_not_lt hge⟩
    · exact harrived.styleAt_of_stop_le hle hsize (Nat.le_of_not_lt hbefore)
  · obtain ⟨pass, s, hsettle, hnone, hstyles⟩ := settle_empty hr hfit hstart
    exact ⟨[pass], s, pass, (wholePass, whole), r.course text, hsettle, rfl, hnone, hwhole,
      r.trace_eq_entries State.consistent_initial _, fun hlt => absurd hlt (Nat.lt_irrefl _),
      fun _ => ⟨rfl, hstyles⟩⟩

/-- A request that ends in a literal which its line cuts off behind that end. -/
theorem shown_of_settle_in_literal :
    ∃ (passes : List Pass) (s : Session) (last : Pass) (whole : Pass × Session) (text : Text),
      text = "....\nx='ab\ny\n".toList ∧ Registry.OnOneLine {} ∧ byteSize text < Size.bound ∧
      isBoundary text 6 = true ∧ isBoundary text 9 = true ∧
      (ofText {} text).settle 6 9 = .ok (passes, s) ∧ passes.getLast? = some last ∧
      last.restyleFrom = none ∧ (ofText {} text).style 0 (byteSize text) = .ok whole ∧
      ∀ pos, pos = 6 ∨ 9 ≤ pos → s.buffer.styleAt pos = whole.2.buffer.styleAt pos := by
  have hr : Registry.OnOneLine {} := ⟨by decide, by decide⟩
  have hfit : byteSize "....\nx='ab\ny\n".toList < Size.bound := by decide
  have hrun : ((Registry.trace {} .initial
      ((Registry.grammar {}).scanText "....\nx='ab\ny\n".toList)).toOption.map fun t =>
        decide (∀ e ∈ t, e.lexeme.start ≤ 6 → e.lexeme.text ≠ "'".toList ∧
          e.lexeme.text ≠ "\"".toList)) = some true := by
    decide +kernel
  have hstart : isBoundary "....\nx='ab\ny\n".toList 6 = true := by decide
  have hstop : isBoundary "....\nx='ab\ny\n".toList 9 = true := by decide
  obtain ⟨passes, s, last, whole, t, hsettle, hlast, hnone, hwhole, htrace, hshown, -⟩ :=
    shown_of_settle hr hfit hstart hstop (by decide)
  rw [htrace] at hrun
  have hquotes := of_decide_eq_true (Option.some.inj hrun)
  refine ⟨passes, s, last, whole, _, rfl, hr, hfit, hstart, hstop, hsettle, hlast, hnone, hwhole,
    ?_⟩
  rintro pos (rfl | hpos)
  · refine hshown (by decide) 6 (by decide) fun _ opening hcut => ?_
    obtain ⟨newline, ⟨before, body, after, rfl, hquote, -⟩, hstart, -⟩ := hcut
    obtain ⟨hsingle, hdouble⟩ := hquotes opening (by simp) hstart
    exact hquote.elim hsingle hdouble
  · exact hshown (by decide) pos (by omega) fun hlt => absurd hlt (by omega)

/-! ### Bytes that are shown otherwise -/

/-- Once the passes of a request on a new session have ended, a byte behind its start has not the
style that styling the text from scratch gives it. -/
def Differs (r : Registry) (text : Text) (start stop : Nat) : Prop :=
  isBoundary text start = true ∧ isBoundary text stop = true ∧ start ≤ stop ∧
    ∃ (passes : List Pass) (s : Session) (last : Pass) (whole : Pass × Session) (pos : Nat),
      (ofText r text).settle start stop = .ok (passes, s) ∧ passes.getLast? = some last ∧
      last.restyleFrom = none ∧ (ofText r text).style 0 (byteSize text) = .ok whole ∧
      start ≤ pos ∧ pos < byteSize text ∧ s.buffer.styleAt pos ≠ whole.2.buffer.styleAt pos

/-- Where the last pass of a request asks to go on, and the style of a byte after it and in the text
styled from scratch. -/
def compare (r : Registry) (text : Text) (start stop pos : Nat) :
    Except Fault (Option (Option Nat) × Option Style × Option Style) := do
  let (passes, s) ← (ofText r text).settle start stop
  let whole ← (ofText r text).style 0 (byteSize text)
  return (passes.getLast?.map Pass.restyleFrom, s.buffer.styleAt pos, whole.2.buffer.styleAt pos)

theorem differs_of_compare {text : Text} {start stop pos : Nat} {here there : Option Style}
    (h : (compare r text start stop pos).toOption = some (some none, here, there))
    (hstart : isBoundary text start = true) (hstop : isBoundary text stop = true)
    (hle : start ≤ stop) (hpos : start ≤ pos) (hsize : pos < byteSize text) (hne : here ≠ there) :
    Differs r text start stop := by
  have hrun := Fault.eq_ok_of_toOption h
  simp only [compare, Fault.bind_eq_ok_iff, Fault.pure_eq_ok, Except.ok.injEq,
    Prod.mk.injEq] at hrun
  obtain ⟨⟨passes, s⟩, hsettle, whole, hwhole, hlast, rfl, rfl⟩ := hrun
  obtain ⟨last, hlast, hnone⟩ := Option.map_eq_some_iff.1 hlast
  exact ⟨hstart, hstop, hle, passes, s, last, whole, pos, hsettle, hlast, hnone, hwhole, hpos,
    hsize, hne⟩

/-- **A request may leave bytes in another style.** The first one ends in a literal that its line
cuts off behind that end, the second one is empty. -/
theorem settle_differs : Registry.OnOneLine {} ∧ Differs {} "....\n'a\n".toList 0 6 ∧
    Differs {} "a\n".toList 0 0 := by
  have hliteral : (compare {} "....\n'a\n".toList 0 6 5).toOption =
      some (some none, some .singleQuoteString, some .unclosedString) := by
    decide +kernel
  have hempty : (compare {} "a\n".toList 0 0 0).toOption = some (some none, none, some .plain) := by
    decide +kernel
  refine ⟨⟨by decide, by decide⟩, ?_, ?_⟩
  · exact differs_of_compare hliteral (by decide) (by decide) (by decide) (by decide) (by decide)
      (by decide)
  · exact differs_of_compare hempty (by decide) (by decide) (by decide) (by decide) (by decide)
      (by decide)

end Session

end TemplateStyler
