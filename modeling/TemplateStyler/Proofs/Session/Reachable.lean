import TemplateStyler.Proofs.Session.Step

/-!
# Reachable sessions

A session is reachable if it comes from a new one by edits that are reported to the styler and by
passes over ranges, in any order.

* `Session.Reachable`: the sessions with such a history.
* `Reachable.sound`: they are sound, since every step keeps a session sound.
* `checkpoint_exact`: **a checkpoint is a line start of the present text with its state**, whatever
  was edited and painted before.
-/

namespace TemplateStyler

open Text Lexeme

variable {r : Registry}

namespace Session

/-- The sessions that come from a new one by reported edits and passes. -/
inductive Reachable (r : Registry) : Session → Prop
  | ofText (text : Text) : Reachable r (.ofText r text)
  | edited {s s' s'' : Session} {start stop : Nat} {inserted : Text} (h : Reachable r s)
      (hedit : s.edit start stop inserted = .ok s')
      (htold : s'.edited start stop (byteSize inserted) = .ok s'') : Reachable r s''
  | forgotten {s s' : Session} {start stop pos : Nat} {inserted : Text} (h : Reachable r s)
      (hedit : s.edit start stop inserted = .ok s') (hpos : pos ≤ start) :
      Reachable r (s'.forgetFrom pos)
  | styled {s s' : Session} {start stop : Nat} {pass : Pass} (h : Reachable r s)
      (hstyle : s.style start stop = .ok (pass, s')) : Reachable r s'

/-- **A reachable session is sound.** -/
theorem Reachable.sound (hr : r.OnOneLine) {s : Session} (h : Reachable r s) : s.Sound r := by
  induction h with
  | ofText text => exact sound_ofText r text
  | edited _ hedit htold ih => exact ih.edited hedit htold
  | forgotten _ hedit hpos ih => exact ih.forgetFrom hedit hpos
  | styled _ hstyle ih => exact (ih.of_style hr hstyle).1

/-! ### Checkpoints -/

/-- The lexemes that stop within whole lines are those of the lines. -/
theorem filter_stop_scanText (hr : r.OnOneLine) {a : Text} (ha : WholeLines a) (b : Text) :
    (r.grammar.scanText (a ++ b)).filter (fun l => l.stop ≤ byteSize a) = r.grammar.scanText a := by
  have hscan := Registry.scanText_append hr ha b
  have hconsecutive := Grammar.consecutive_scan r.grammar 0 true (a ++ b)
  rw [← Grammar.scanText, hscan] at hconsecutive
  have htotal : total (r.grammar.scanText a) = byteSize a := Grammar.total_scan _ _ _ _
  have hfilter := Registry.filter_stop_eq hconsecutive fun l hl => Grammar.size_pos_of_mem_scan hl
  rwa [htotal, Nat.zero_add, ← hscan] at hfilter

/-- A text that is not empty ends with a lexeme of it. -/
theorem exists_stop_eq {a : Text} (ha : a ≠ []) :
    ∃ l ∈ r.grammar.scanText a, l.stop = byteSize a := by
  have hne : r.grammar.scanText a ≠ [] := by
    intro hnil
    have hflatten := Grammar.flatten_scan r.grammar 0 true a
    rw [← Grammar.scanText, hnil] at hflatten
    exact ha hflatten.symm
  obtain ⟨ls, l, hls⟩ := (List.eq_nil_or_concat _).resolve_left hne
  rw [List.concat_eq_append] at hls
  refine ⟨l, by rw [hls]; simp, ?_⟩
  have hconsecutive := Grammar.consecutive_scan r.grammar 0 true a
  have htotal := Grammar.total_scan r.grammar 0 true a
  rw [← Grammar.scanText, hls] at hconsecutive htotal
  rw [consecutive_append] at hconsecutive
  rw [total_append, total_cons, total_nil] at htotal
  have hstart := hconsecutive.2.1
  rw [Lexeme.stop]
  omega

/-- **Checkpoints are exact.** A checkpoint lies in the text behind a newline, where a lexeme of the
text ends, and holds the state after the lexemes up to it. -/
theorem checkpoint_exact (hr : r.OnOneLine) {s : Session} (hs : Reachable r s) {pos : Nat}
    {state : State} (hpos : s.styler.checkpoint? pos = some state) :
    pos ≤ s.buffer.size ∧
      (∃ before after, cut? s.buffer.text pos = some (before, after) ∧
        before.getLast? = some '\n') ∧
      (∃ l ∈ r.grammar.scanText s.buffer.text, l.stop = pos) ∧
      r.walk .initial ((r.grammar.scanText s.buffer.text).filter fun l => l.stop ≤ pos) =
        .ok state := by
  obtain ⟨hpositive, hline, rfl⟩ := (hs.sound hr).exact.checkpoints pos state hpos
  obtain ⟨a, b, hab, rfl, ha⟩ := isLineStart_iff.1 hline
  have hne : a ≠ [] := by
    rintro rfl
    simp at hpositive
  refine ⟨hline.le, ⟨a, b, ?_, ha.getLast? hne⟩, ?_, ?_⟩
  · rw [hab, cut?_append]
  · obtain ⟨l, hl, hstop⟩ := exists_stop_eq (r := r) hne
    refine ⟨l, ?_, hstop⟩
    rw [hab, Registry.scanText_append hr ha]
    exact List.mem_append_left _ hl
  · rw [hab, filter_stop_scanText hr ha, r.walk_eq_after State.consistent_initial,
      Registry.stateAt_append]
    rfl

/-- The second line of a script keeps its checkpoint while the text behind it is edited. -/
theorem checkpoint_exact_after_edit :
    ∃ (s : Session) (state : State), Registry.OnOneLine {} ∧ Reachable {} s ∧
      s.buffer.text = "....\nx\n..\n".toList ∧ s.styler.checkpoint? 5 = some state ∧
      Registry.walk {} .initial ((Registry.grammar {}).scanText s.buffer.text |>.filter
        fun l => l.stop ≤ 5) = .ok state := by
  have hr : Registry.OnOneLine {} := ⟨by decide, by decide⟩
  have hrun : (do
      let start ← (ofText {} "....\nx\ny\n..\n".toList).style 0 11
      let s ← start.2.edit 7 9 []
      let s ← s.edited 7 9 0
      return (s.buffer.text, s.styler.checkpoint? 5) :
        Except Fault (Text × Option State)).toOption =
      some ("....\nx\n..\n".toList, some ⟨.scriptBody, .script, .markup⟩) := by
    decide +kernel
  obtain ⟨⟨pass, s⟩, hstyle, s', hedit, s'', htold, heq⟩ := by
    simpa only [Fault.bind_eq_ok_iff] using Fault.eq_ok_of_toOption hrun
  obtain ⟨htext, hpos⟩ := Prod.mk.inj (Except.ok.inj heq)
  have hreachable : Reachable {} s'' := .edited (.styled (.ofText _) hstyle) hedit htold
  exact ⟨s'', _, hr, hreachable, htext, hpos, (checkpoint_exact hr hreachable hpos).2.2.2⟩

end Session

end TemplateStyler
