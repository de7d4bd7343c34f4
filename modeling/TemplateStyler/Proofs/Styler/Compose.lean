import TemplateStyler.Proofs.Fault
import TemplateStyler.Proofs.Styler.Head
import TemplateStyler.Styler.Basic

/-!
# Styling a text in parts

At a line start scanning and styling begin anew: what stands before is styled as a text of its own,
and so is what stands behind, from the state that the first part leads to.

* `Grammar.tokenize`: the texts of the lexemes of a whole text.
* `Styler.ofState`: a styler that takes up a text in a given state. It gives each lexeme of the text
  one span (`style_ofState`).
* `styleText_append`: **scanning and styling are compositional at line starts.**
-/

namespace TemplateStyler

open Text Lexeme

/-- The texts of the lexemes of a whole text. -/
def Grammar.tokenize (g : Grammar) (text : Text) : Except Fault (List Text) := do
  return (← g.lexemes text 0 (byteSize text)).map Lexeme.text

theorem Grammar.tokenize_eq (g : Grammar) (text : Text) :
    g.tokenize text = .ok ((g.scanText text).map Lexeme.text) := by
  have hlexemes := g.lexemes_wholeLines wholeLines_nil text
  rw [List.nil_append, byteSize_nil] at hlexemes
  rw [tokenize, hlexemes]
  rfl

variable {r : Registry}

/-! ### Whole texts from a state -/

namespace Styler

/-- A styler that takes up a text in a state, which is its checkpoint at the start. -/
def ofState (r : Registry) (s : State) : Styler :=
  { ofRegistry r with checkpoints := ({} : Marks).insert 0 s }

/-- The spans of a text that is taken up in a state, and the state at its end. -/
theorem style_of_seed (st : Styler) {s : State} {text : Text} (hs : s.Consistent)
    (hregistry : st.registry = r) (hgrammar : st.grammar = r.grammar)
    (hseed : st.seed text 0 = (0, s)) :
    ∃ pass st', st.style text 0 (byteSize text) = .ok (pass, st') ∧
      pass.spans = (r.entries s (r.grammar.scanText text)).lexemeSpans ∧
      pass.endState = r.after s (r.grammar.scanText text) := by
  have hconsecutive := Grammar.consecutive_scan r.grammar 0 true text
  have hstop : floorBoundary text (byteSize text) = byteSize text :=
    floorBoundary_of_byteSize_le (Nat.le_refl _)
  have hstart : floorBoundary text (min 0 (byteSize text)) = 0 := by
    rw [Nat.zero_min]
    exact floorBoundary_append [] text
  have hlexemes := st.grammar.lexemes_wholeLines wholeLines_nil text
  rw [List.nil_append, byteSize_nil, hgrammar] at hlexemes
  -- no lexeme starts at the end of the text
  have hall : (r.grammar.scan 0 true text).takeWhile (fun l => l.start < byteSize text) =
      r.grammar.scan 0 true text := by
    obtain ⟨-, -, -, htake⟩ := hconsecutive.exists_append_filter (byteSize text)
    rw [htake, Registry.filter_scan (by omega)]
  have htrace := r.trace_eq_entries hs (r.grammar.scan 0 true text)
  simp only [Styler.style, hstop, hstart, hseed, hgrammar, hlexemes, hregistry, bind, Except.bind,
    hall, htrace]
  refine ⟨_, _, rfl, ?_, r.endState_entries s _⟩
  rw [← r.map_lexeme_entries s (r.grammar.scan 0 true text)] at hconsecutive
  refine Trace.spans_of_within hconsecutive (fun e he => ?_) (Nat.le_refl _) ?_
  · exact Grammar.size_pos_of_mem_scan (r.lexeme_mem_of_mem_entries he)
  · rw [Registry.map_lexeme_entries, Grammar.total_scan, Nat.zero_add]

theorem seed_ofState (s : State) (text : Text) : (ofState r s).seed text 0 = (0, s) := by
  have hzero : lineStart text 0 = 0 := (lineStart_eq_self_iff [] text).2 wholeLines_nil
  rw [seed, hzero]
  rfl

theorem style_ofState {s : State} (hs : s.Consistent) (text : Text) :
    ∃ pass st, (ofState r s).style text 0 (byteSize text) = .ok (pass, st) ∧
      pass.spans = (r.entries s (r.grammar.scanText text)).lexemeSpans ∧
      pass.endState = r.after s (r.grammar.scanText text) :=
  style_of_seed _ hs rfl rfl (seed_ofState s text)

end Styler

namespace Registry

theorem styleText_eq (r : Registry) (text : Text) :
    ∃ pass st, (Styler.ofRegistry r).style text 0 (byteSize text) = .ok (pass, st) ∧
      r.styleText text = .ok pass.spans ∧ pass.spans = (r.course text).lexemeSpans ∧
      pass.endState = r.stateAfter text := by
  have hseed : (Styler.ofRegistry r).seed text 0 = (0, .initial) := rfl
  obtain ⟨pass, st, hstyle, hspans, hend⟩ :=
    Styler.style_of_seed _ State.consistent_initial rfl rfl hseed
  have hfresh : { Styler.ofRegistry r with checkpoints := {}, painted := {} } =
      Styler.ofRegistry r := rfl
  refine ⟨pass, st, hstyle, ?_, hspans, hend⟩
  rw [styleText, Styler.styleText, hfresh, hstyle]
  rfl

/-! ### At line starts -/

/-- The spans of a text behind whole lines. -/
theorem lexemeSpans_course_append (hr : r.OnOneLine) {a : Text} (ha : WholeLines a) (b : Text) :
    (r.course (a ++ b)).lexemeSpans = (r.course a).lexemeSpans ++
      (r.entries (r.stateAfter a) (r.grammar.scanText b)).lexemeSpans := by
  have hsplit := lexemeSpans_entries_append State.consistent_initial
    (not_inLineString_stateAfter hr ha) (r.grammar.scan (byteSize a) true b)
  rw [course, scanText_append hr ha, hsplit]
  exact congrArg _ (lexemeSpans_congr (Grammar.map_text_scan _ _ _ _ _) _).1

/-- **Scanning and styling are compositional at line starts.** The lexemes of whole lines and of any
text behind them are those of the two texts. Its spans are those of the lines and those that the
text behind has when it is taken up in the state at the end of the lines. -/
theorem styleText_append (hr : r.OnOneLine) {a : Text} (ha : WholeLines a) (b : Text) :
    (∃ front back, r.grammar.tokenize a = .ok front ∧ r.grammar.tokenize b = .ok back ∧
      r.grammar.tokenize (a ++ b) = .ok (front ++ back)) ∧
    ∃ front st back st', (Styler.ofRegistry r).style a 0 (byteSize a) = .ok (front, st) ∧
      (Styler.ofState r front.endState).style b 0 (byteSize b) = .ok (back, st') ∧
      r.styleText a = .ok front.spans ∧ r.styleText (a ++ b) = .ok (front.spans ++ back.spans) := by
  constructor
  · refine ⟨_, _, Grammar.tokenize_eq _ a, Grammar.tokenize_eq _ b, ?_⟩
    rw [Grammar.tokenize_eq, scanText_append hr ha, List.map_append, Grammar.scanText,
      Grammar.scanText, Grammar.map_text_scan _ (byteSize a) 0]
  · obtain ⟨front, st, hfront, hstyled, hspans, hend⟩ := r.styleText_eq a
    obtain ⟨back, st', hback, hspans', -⟩ := Styler.style_ofState (r.consistent_stateAfter a) b
    obtain ⟨whole, -, -, hwhole, hspans'', -⟩ := r.styleText_eq (a ++ b)
    refine ⟨front, st, back, st', hfront, by rw [hend]; exact hback, hstyled, ?_⟩
    rw [hwhole, hspans'', lexemeSpans_course_append hr ha, hspans, hspans']

/-- A number behind the dots that open a script. -/
theorem styleText_append_script :
    OnOneLine {} ∧ WholeLines "....\n".toList ∧
    ∃ (front back : Pass) (st st' : Styler),
      (Styler.ofRegistry {}).style "....\n".toList 0 5 = .ok (front, st) ∧
      front.endState.mode = .script ∧
      (Styler.ofState {} front.endState).style "1".toList 0 1 = .ok (back, st') ∧
      back.spans = [⟨1, .integer⟩] ∧
      styleText {} "....\n1".toList = .ok (front.spans ++ back.spans) := by
  have hr : OnOneLine {} := ⟨by decide, by decide⟩
  have ha : WholeLines "....\n".toList := by decide
  have hrun : (do
      let front ← (Styler.ofRegistry {}).style "....\n".toList 0 5
      let back ← (Styler.ofState {} front.1.endState).style "1".toList 0 1
      return decide (front.1.endState.mode = .script ∧ back.1.spans = [⟨1, .integer⟩]) :
        Except Fault Bool).toOption = some true := by
    decide +kernel
  obtain ⟨⟨front, st⟩, hfront, ⟨back, st'⟩, hback, heq⟩ := by
    simpa only [Fault.bind_eq_ok_iff] using Fault.eq_ok_of_toOption hrun
  obtain ⟨hmode, hspans⟩ := of_decide_eq_true (Except.ok.inj heq)
  obtain ⟨-, front', t, back', t', hfront', hback', -, hwhole⟩ :=
    styleText_append hr ha "1".toList
  cases hfront.symm.trans hfront'
  cases hback.symm.trans hback'
  exact ⟨hr, ha, front, back, st, st', hfront, hmode, hback, hspans, hwhole⟩

end Registry

end TemplateStyler
