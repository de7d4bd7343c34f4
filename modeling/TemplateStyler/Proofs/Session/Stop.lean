import TemplateStyler.Proofs.Session.Kept

/-!
# Where painting may stop

The passes after an edit stop where one asks for no more. The text behind it then is to look as if
it were styled from scratch.

* `shown_behind_pass`: **where a conclusive pass asks for no more, the text behind it is painted
  right,** if the session was kept painted by such passes.
* `Session.StopsEarly`: a pass asks for no more, and the text behind it is not painted right.
  `restyleFrom_none_too_early` shows which passes do so.
-/

namespace TemplateStyler

open Text

variable {r : Registry}

namespace Session

/-- What a conclusive pass has behind its end, where it asks for no more. -/
theorem Settling.drop_styles_of_last {s s' : Session} (hr : r.OnOneLine) {u x y : Text}
    {pos last : Nat} {pass : Pass} (h : s.Settling r u x y pos) (hshows : s.Shows r u x y pos)
    (hfit : byteSize (x ++ y) < Size.bound) (hstyle : s.style pos last = .ok (pass, s'))
    (hnone : pass.restyleFrom = none) (hline : IsLineStart (x ++ y) last)
    (hconclusive : Conclusive (u ++ y) (byteSize u) (x ++ y) (byteSize x) pos last) :
    s'.buffer.styles.drop last = ((r.colours (x ++ y)).drop last).map some := by
  have hle : pos ≤ last := by
    rcases hconclusive with hsize | ⟨hlt, -⟩
    · rw [hsize]
      exact h.le
    · exact Nat.le_of_lt hlt
  obtain ⟨pass', s'', hstyle', hsettling, hstyles, hrestyle⟩ :=
    h.exists_pass hr hfit hle (Or.inl hline)
  rw [hstyle] at hstyle'
  cases hstyle'
  have hlength := h.length_styles
  have hle' := hline.le
  have hfront : (s.buffer.styles.take pos ++
      (r.shownIn (x ++ y) pos last).map some).length = last := by
    rw [List.length_append, List.length_take, List.length_map, Registry.length_shownIn hle']
    omega
  rw [hstyles, List.drop_left' hfront]
  by_cases hsize : last = byteSize (x ++ y)
  · rw [List.drop_of_length_le (by omega), List.drop_of_length_le]
    · rfl
    · rw [Registry.length_colours, hsize]
  · obtain ⟨hlt, hcut⟩ := hconclusive.resolve_left hsize
    obtain ⟨a, b, rfl, rfl, hu, hx, hagree⟩ :=
      h.agree_of_none hlt hsize hle' hcut hnone hrestyle
    exact styles_of_agree hr hshows.back hle hu hx hagree

/-- **Where a pass may stop.** After an edit of a session that was kept painted, a request from the
line of the edit on ends at a line start. If the pass is conclusive and asks for no more, every byte
behind it already has the style that styling the text from scratch gives it. -/
theorem shown_behind_pass (hr : r.OnOneLine) {s s₁ s₂ : Session} (hs : Kept r Conclusive s)
    {start stop last : Nat} {inserted : Text} (hedit : s.edit start stop inserted = .ok s₁)
    (htold : s₁.edited start stop (byteSize inserted) = .ok s₂)
    (hfit : s₂.buffer.size < Size.bound) (hline : IsLineStart s₂.buffer.text last)
    (hconclusive : Conclusive s.buffer.text stop s₂.buffer.text (start + byteSize inserted)
      (lineStart s₂.buffer.text start) last) :
    ∃ (pass : Pass) (s₃ : Session) (whole : Pass × Session),
      s₂.style (lineStart s₂.buffer.text start) last = .ok (pass, s₃) ∧
      (ofText r s₂.buffer.text).style 0 s₂.buffer.size = .ok whole ∧
      (pass.restyleFrom = none →
        ∀ pos, last ≤ pos → s₃.buffer.styleAt pos = whole.2.buffer.styleAt pos) := by
  obtain ⟨hsettled, -⟩ := hs.settled hr
  obtain ⟨-, before, removed, after, htext, -, rfl, rfl, hstyles⟩ := exists_of_edit hedit
  have hsettling := hsettled.edited htext hedit htold
  have hshows : s₂.Shows r (before ++ removed) (before ++ inserted) after
      (lineStart (before ++ inserted ++ after) (byteSize before)) := by
    obtain ⟨st, -, rfl⟩ := edited_eq_ok_iff.1 htold
    exact hsettled.shows hr htext hstyles
  obtain ⟨pass, s₃, hstyle, -⟩ :=
    hsettling.sound.style hr hfit (lineStart s₂.buffer.text (byteSize before)) last
  obtain ⟨wholePass, whole, hwhole, hcolours⟩ := (sound_ofText r s₂.buffer.text).style_all hr hfit
  refine ⟨pass, s₃, (wholePass, whole), hstyle, hwhole, fun hnone pos hpos => ?_⟩
  rw [hsettling.text] at hstyle hline
  rw [Buffer.size, hsettling.text] at hfit
  rw [← byteSize_append, htext, hsettling.text] at hconclusive
  have hdrop := hsettling.drop_styles_of_last hr hshows hfit hstyle hnone hline hconclusive
  have hthere := styleAt_of_styles hcolours pos
  simp only [ofText, Buffer.ofText, hsettling.text] at hthere
  rw [hthere, Buffer.styleAt, ← Nat.add_sub_cancel' hpos, ← List.getElem?_drop, hdrop,
    List.getElem?_map, List.getElem?_drop]
  cases (r.colours (before ++ inserted ++ after))[last + (pos - last)]? <;> rfl

/-- Two lines are joined, and parted again. The pass after the second edit ends behind the second
line, and the third one needs no painting. -/
theorem shown_behind_pass_part :
    ∃ (s s₁ s₂ s₃ : Session) (pass : Pass) (whole : Pass × Session), Registry.OnOneLine {} ∧
      Kept {} Conclusive s ∧ s.buffer.text = "a+ yes\nb\n".toList ∧
      s.edit 1 1 "\n".toList = .ok s₁ ∧
      s₁.edited 1 1 1 = .ok s₂ ∧ s₂.buffer.size < Size.bound ∧ IsLineStart s₂.buffer.text 8 ∧
      Conclusive s.buffer.text 1 s₂.buffer.text 2 0 8 ∧
      s₂.style 0 8 = .ok (pass, s₃) ∧ pass.restyleFrom = none ∧
      (ofText {} s₂.buffer.text).style 0 s₂.buffer.size = .ok whole ∧
      ∀ pos, 8 ≤ pos → s₃.buffer.styleAt pos = whole.2.buffer.styleAt pos := by
  have hr : Registry.OnOneLine {} := ⟨by decide, by decide⟩
  have hrun : (do
      let whole ← (ofText {} "a\n+ yes\nb\n".toList).style 0 10
      let s₁ ← whole.2.edit 1 2 []
      let s₂ ← s₁.edited 1 2 0
      let joined ← s₂.style (lineStart s₂.buffer.text 1) 7
      let t₁ ← joined.2.edit 1 1 "\n".toList
      let t₂ ← t₁.edited 1 1 1
      let parted ← t₂.style 0 8
      return decide (
        (s₂.buffer.text = "a+ yes\nb\n".toList ∧ joined.1.start = 0 ∧
          joined.1.restyleFrom = none ∧ joined.2.Full {}) ∧
        joined.2.buffer.text = "a+ yes\nb\n".toList ∧
        t₂.buffer.text = "a\n+ yes\nb\n".toList ∧ parted.1.restyleFrom = none) :
          Except Fault Bool).toOption = some true := by
    decide +kernel
  obtain ⟨⟨p, s⟩, hstyle, s₁, hedit, s₂, htold, ⟨joined, s₃⟩, hjoined, t₁, hedit', t₂, htold',
    ⟨parted, t₃⟩, hparted, heq⟩ := by
    simpa only [Fault.bind_eq_ok_iff] using Fault.eq_ok_of_toOption hrun
  obtain ⟨⟨htext₂, hstart, hnone, hfull⟩, htext₃, htext', hnone'⟩ :=
    of_decide_eq_true (Except.ok.inj heq)
  have hfit₂ : s₂.buffer.size < Size.bound := by
    rw [Buffer.size, htext₂]
    decide
  have hend : (s₂.bounds (lineStart s₂.buffer.text 1) 7).2 = 7 := by
    rw [bounds, htext₂]
    decide
  have hconclusive₂ : Conclusive s.buffer.text 2 s₂.buffer.text (1 + 0) joined.start
      (s₂.bounds (lineStart s₂.buffer.text 1) 7).2 := by
    rw [hstart, hend]
    exact Or.inr ⟨by decide, fun heq => absurd heq (by decide)⟩
  have hkept : Kept {} Conclusive s₃ :=
    .edited (.styled (.ofText _) (by decide) hstyle) hedit htold hfit₂ (.last hjoined hnone)
      hconclusive₂ hfull
  have hfit : t₂.buffer.size < Size.bound := by
    rw [Buffer.size, htext']
    decide
  have hline : IsLineStart t₂.buffer.text 8 := by
    rw [htext']
    decide
  have hconclusive : Conclusive s₃.buffer.text 1 t₂.buffer.text 2 0 8 :=
    Or.inr ⟨by decide, fun heq => absurd heq (by decide)⟩
  have hlineStart : lineStart t₂.buffer.text 1 = 0 := by
    rw [htext']
    decide
  obtain ⟨pass, t, new, hpass, hnew, hshown⟩ := shown_behind_pass hr hkept hedit' htold' hfit hline
    (by rw [hlineStart]; exact hconclusive)
  rw [hlineStart, hparted] at hpass
  cases hpass
  exact ⟨s₃, t₁, t₂, t₃, parted, new, hr, hkept, htext₃, hedit', htold', hfit, hline, hconclusive,
    hparted, hnone', hnew, hshown hnone'⟩

/-! ### Passes that stop too early -/

/-- After an edit the pass from its line to a line start behind what was inserted asks for no more,
though a byte behind it has not the style that styling the text from scratch gives it. -/
def StopsEarly (s : Session) (r : Registry) (start stop : Nat) (inserted : Text) (last : Nat) :
    Prop :=
  ∃ (s₁ s₂ s₃ : Session) (pass : Pass) (whole : Pass × Session) (pos : Nat),
    s.edit start stop inserted = .ok s₁ ∧ s₁.edited start stop (byteSize inserted) = .ok s₂ ∧
    IsLineStart s₂.buffer.text last ∧ start + byteSize inserted ≤ last ∧
    s₂.style (lineStart s₂.buffer.text start) last = .ok (pass, s₃) ∧ pass.restyleFrom = none ∧
    (ofText r s₂.buffer.text).style 0 s₂.buffer.size = .ok whole ∧
    last ≤ pos ∧ s₃.buffer.styleAt pos ≠ whole.2.buffer.styleAt pos

/-- The text after an edit, where the pass from its line to a position asks to go on, and the style
of a byte after it and in the text styled from scratch. -/
def probe (s : Session) (r : Registry) (start stop : Nat) (inserted : Text) (last pos : Nat) :
    Except Fault (Text × Option Nat × Option Style × Option Style) := do
  let s₁ ← s.edit start stop inserted
  let s₂ ← s₁.edited start stop (byteSize inserted)
  let pass ← s₂.style (lineStart s₂.buffer.text start) last
  let whole ← (ofText r s₂.buffer.text).style 0 s₂.buffer.size
  return (s₂.buffer.text, pass.1.restyleFrom, pass.2.buffer.styleAt pos,
    whole.2.buffer.styleAt pos)

theorem stopsEarly_of_probe {s : Session} {start stop last pos : Nat} {inserted text : Text}
    {here there : Option Style}
    (h : s.probe r start stop inserted last pos = .ok (text, none, here, there))
    (hline : IsLineStart text last) (hlast : start + byteSize inserted ≤ last) (hpos : last ≤ pos)
    (hne : here ≠ there) : s.StopsEarly r start stop inserted last := by
  simp only [probe, Fault.bind_eq_ok_iff, Fault.pure_eq_ok, Except.ok.injEq, Prod.mk.injEq] at h
  obtain ⟨s₁, hedit, s₂, htold, ⟨pass, s₃⟩, hstyle, whole, hwhole, rfl, hnone, rfl, rfl⟩ := h
  exact ⟨s₁, s₂, s₃, pass, whole, pos, hedit, htold, hline, hlast, hstyle, hnone, hwhole, hpos, hne⟩

/-- An empty pass never asks for more. -/
theorem stopsEarly_empty : ∃ s, Kept {} Conclusive s ∧ s.buffer.text = "....\nx\n".toList ∧
    s.StopsEarly {} 0 5 [] 0 := by
  have hrun : (do
      let whole ← (ofText {} "....\nx\n".toList).style 0 7
      let outcome ← whole.2.probe {} 0 5 [] 0 0
      return decide (whole.2.buffer.text = "....\nx\n".toList ∧
        outcome = ("x\n".toList, none, some .scriptBody, some .plain)) :
          Except Fault Bool).toOption = some true := by
    decide +kernel
  obtain ⟨⟨pass, s⟩, hstyle, outcome, hprobe, heq⟩ := by
    simpa only [Fault.bind_eq_ok_iff] using Fault.eq_ok_of_toOption hrun
  obtain ⟨htext, rfl⟩ := of_decide_eq_true (Except.ok.inj heq)
  exact ⟨s, .styled (.ofText _) (by decide) hstyle, htext,
    stopsEarly_of_probe hprobe (by decide) (by decide) (by decide) (by decide)⟩

/-- A state that was painted at a line start stays behind when the line is joined to the one before
it, and is met again when they are parted. -/
theorem stopsEarly_part : ∃ s, Kept {} Conclusive s ∧ s.buffer.text = "a+ yes\n".toList ∧
    s.StopsEarly {} 1 1 "\n".toList 2 := by
  have hrun : (do
      let whole ← (ofText {} "a\n+ yes\n".toList).style 0 8
      let s₁ ← whole.2.edit 1 2 []
      let s₂ ← s₁.edited 1 2 0
      let joined ← s₂.style (lineStart s₂.buffer.text 1) 7
      let outcome ← joined.2.probe {} 1 1 "\n".toList 2 2
      return decide (s₂.buffer.text = "a+ yes\n".toList ∧ joined.1.restyleFrom = none ∧
        joined.2.Full {} ∧ joined.2.buffer.text = "a+ yes\n".toList ∧
        outcome = ("a\n+ yes\n".toList, none, some .plain, some .correctAnswer)) :
          Except Fault Bool).toOption = some true := by
    decide +kernel
  obtain ⟨⟨pass, s⟩, hstyle, s₁, hedit, s₂, htold, ⟨joined, s₃⟩, hjoined, outcome, hprobe,
    heq⟩ := by
    simpa only [Fault.bind_eq_ok_iff] using Fault.eq_ok_of_toOption hrun
  obtain ⟨htext₂, hnone, hfull, htext₃, rfl⟩ := of_decide_eq_true (Except.ok.inj heq)
  have hfit : s₂.buffer.size < Size.bound := by
    rw [Buffer.size, htext₂]
    decide
  have hend : (s₂.bounds (lineStart s₂.buffer.text 1) 7).2 = byteSize s₂.buffer.text := by
    rw [bounds, htext₂]
    decide
  exact ⟨s₃, .edited (.styled (.ofText _) (by decide) hstyle) hedit htold hfit
    (.last hjoined hnone) (Or.inl hend) hfull, htext₃,
    stopsEarly_of_probe hprobe (by decide) (by decide) (by decide) (by decide)⟩

/-- After an edit of a string no more is asked for, since its bytes look alike in a script and in an
expression. What was painted behind it is out of date, and is met again after the third edit. -/
theorem stopsEarly_after_empty : ∃ s, Kept {} AnyPass s ∧
    s.buffer.text = "#\x7b'''\na\n'''\x7db\n".toList ∧ s.StopsEarly {} 2 2 "#PYTHON".toList 13 := by
  have hrun : (do
      let whole ← (ofText {} "#\x7b#PYTHON'''\na\nb\n".toList).style 0 17
      let s₁ ← whole.2.edit 2 9 []
      let s₂ ← s₁.edited 2 9 0
      let empty ← s₂.style (lineStart s₂.buffer.text 2) 0
      let t₁ ← empty.2.edit 8 8 "'''\x7d".toList
      let t₂ ← t₁.edited 8 8 4
      let closed ← t₂.style (lineStart t₂.buffer.text 8) 14
      let outcome ← closed.2.probe {} 2 2 "#PYTHON".toList 13 18
      return decide (
        (s₂.buffer.size < Size.bound ∧ empty.1.restyleFrom = none ∧ empty.2.Full {}) ∧
        (t₂.buffer.size < Size.bound ∧ closed.1.restyleFrom = none ∧ closed.2.Full {}) ∧
        closed.2.buffer.text = "#\x7b'''\na\n'''\x7db\n".toList ∧
        outcome = ("#\x7b#PYTHON'''\na\n'''\x7db\n".toList, none, some .tag, some .scriptBody)) :
          Except Fault Bool).toOption = some true := by
    decide +kernel
  obtain ⟨⟨pass, s⟩, hstyle, s₁, hedit, s₂, htold, ⟨empty, s₃⟩, hempty, t₁, hedit', t₂, htold',
    ⟨closed, t₃⟩, hclosed, outcome, hprobe, heq⟩ := by
    simpa only [Fault.bind_eq_ok_iff] using Fault.eq_ok_of_toOption hrun
  obtain ⟨⟨hfit, hnone, hfull⟩, ⟨hfit', hnone', hfull'⟩, htext, rfl⟩ :=
    of_decide_eq_true (Except.ok.inj heq)
  have hkept : Kept {} AnyPass s₃ :=
    .edited (.styled (.ofText _) (by decide) hstyle) hedit htold hfit (.last hempty hnone) trivial
      hfull
  have hkept' : Kept {} AnyPass t₃ :=
    .edited hkept hedit' htold' hfit' (.last hclosed hnone') trivial hfull'
  exact ⟨t₃, hkept', htext,
    stopsEarly_of_probe hprobe (by decide) (by decide) (by decide) (by decide)⟩

/-- The same where the pass after the second edit is not empty, but ends where two lines were joined
and parted again. -/
theorem stopsEarly_after_part : ∃ s, Kept {} AnyPass s ∧
    s.buffer.text = "#PYTHON\n'''\na\n'''\x7db\n".toList ∧
    s.StopsEarly {} 0 8 "#\x7b".toList 6 := by
  have hrun : (do
      let whole ← (ofText {} "#PYTHON\n'''\na\nb\n".toList).style 0 16
      let s₁ ← whole.2.edit 0 8 "#\x7b".toList
      let s₂ ← s₁.edited 0 8 2
      let joined ← s₂.style (lineStart s₂.buffer.text 0) 10
      let t₁ ← joined.2.edit 0 2 "#PYTHON\n".toList
      let t₂ ← t₁.edited 0 2 8
      let parted ← t₂.style (lineStart t₂.buffer.text 0) 8
      let u₁ ← parted.2.edit 14 14 "'''\x7d".toList
      let u₂ ← u₁.edited 14 14 4
      let closed ← u₂.style (lineStart u₂.buffer.text 14) 20
      let outcome ← closed.2.probe {} 0 8 "#\x7b".toList 6 11
      return decide (
        (s₂.buffer.size < Size.bound ∧ joined.1.restyleFrom = none ∧ joined.2.Full {}) ∧
        (t₂.buffer.size < Size.bound ∧ parted.1.restyleFrom = none ∧ parted.2.Full {}) ∧
        (u₂.buffer.size < Size.bound ∧ closed.1.restyleFrom = none ∧ closed.2.Full {}) ∧
        closed.2.buffer.text = "#PYTHON\n'''\na\n'''\x7db\n".toList ∧
        outcome = ("#\x7b'''\na\n'''\x7db\n".toList, none, some .scriptBody, some .tag)) :
          Except Fault Bool).toOption = some true := by
    decide +kernel
  obtain ⟨⟨pass, s⟩, hstyle, s₁, hedit, s₂, htold, ⟨joined, s₃⟩, hjoined, t₁, hedit', t₂, htold',
    ⟨parted, t₃⟩, hparted, u₁, hedit'', u₂, htold'', ⟨closed, u₃⟩, hclosed, outcome, hprobe,
    heq⟩ := by
    simpa only [Fault.bind_eq_ok_iff] using Fault.eq_ok_of_toOption hrun
  obtain ⟨⟨hfit, hnone, hfull⟩, ⟨hfit', hnone', hfull'⟩, ⟨hfit'', hnone'', hfull''⟩, htext, rfl⟩ :=
    of_decide_eq_true (Except.ok.inj heq)
  have hkept : Kept {} AnyPass s₃ :=
    .edited (.styled (.ofText _) (by decide) hstyle) hedit htold hfit (.last hjoined hnone) trivial
      hfull
  have hkept' : Kept {} AnyPass t₃ :=
    .edited hkept hedit' htold' hfit' (.last hparted hnone') trivial hfull'
  have hkept'' : Kept {} AnyPass u₃ :=
    .edited hkept' hedit'' htold'' hfit'' (.last hclosed hnone'') trivial hfull''
  exact ⟨u₃, hkept'', htext,
    stopsEarly_of_probe hprobe (by decide) (by decide) (by decide) (by decide)⟩

/-- **A pass that is not conclusive may stop too early**, and so may those of later edits. The first
two sessions were kept painted by conclusive passes, and the pass after their edit is empty or ends
where two lines were joined and parted again. In the other two such a pass came before. -/
theorem restyleFrom_none_too_early : Registry.OnOneLine {} ∧
    (∃ s, Kept {} Conclusive s ∧ s.buffer.text = "....\nx\n".toList ∧ s.StopsEarly {} 0 5 [] 0) ∧
    (∃ s, Kept {} Conclusive s ∧ s.buffer.text = "a+ yes\n".toList ∧
      s.StopsEarly {} 1 1 "\n".toList 2) ∧
    (∃ s, Kept {} AnyPass s ∧ s.buffer.text = "#\x7b'''\na\n'''\x7db\n".toList ∧
      s.StopsEarly {} 2 2 "#PYTHON".toList 13) ∧
    (∃ s, Kept {} AnyPass s ∧ s.buffer.text = "#PYTHON\n'''\na\n'''\x7db\n".toList ∧
      s.StopsEarly {} 0 8 "#\x7b".toList 6) :=
  ⟨⟨by decide, by decide⟩, stopsEarly_empty, stopsEarly_part, stopsEarly_after_empty,
    stopsEarly_after_part⟩

end Session

end TemplateStyler
