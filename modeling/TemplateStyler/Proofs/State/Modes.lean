import Mathlib.Data.List.Chain
import TemplateStyler.Proofs.State.Consistent

/-!
# Modes along a run

A run steps through lexemes from the initial state. None of its steps fails, whatever the lexemes
are, and each fits the modes around it.

* `Mode.successors`: the modes to which a mode can change.
* `State.LeadsTo`: the style of a step is admitted by the modes around it, and a change of mode is
  one of those.
* `leadsTo_next`: **a step from a consistent state fits its modes**.
* `isChain_states`: **so does every step of a run**, and all its states are consistent.
-/

namespace TemplateStyler

/-- The modes to which a mode can change. -/
def Mode.successors : Mode → List Mode
  | .markup => [.script, .expression, .header, .core]
  | .script => [.markup, .string]
  | .expression => [.markup, .script, .string]
  | .string => [.script, .expression]
  | .header | .core => [.markup]

/-- The states around a lexeme, as far as their modes and the style of the lexeme go. -/
structure State.LeadsTo (s s' : State) : Prop where
  /-- A style within one mode is admitted by it. -/
  within : s'.mode = s.mode → s'.mode.admits s'.style = true
  /-- A style between two modes is admitted by one of them. -/
  between : s'.mode ≠ s.mode → s.mode.admits s'.style = true ∨ s'.mode.admits s'.style = true
  change : s'.mode ≠ s.mode → s'.mode ∈ s.mode.successors

namespace Registry

variable (r : Registry)

/-- **A step from a consistent state fits the modes around it.** -/
theorem leadsTo_next {s : State} (hs : s.Consistent) (lexeme : List Char) :
    s.LeadsTo (r.next lexeme s) := by
  by_cases hmode : s.mode = .string
  · have hstyle : s.mode.admits s.style = true := by
      have hquote := hs.quote hmode
      rw [hmode]
      cases h : s.style <;> rw [h] at hquote <;> first | rfl | cases hquote
    have hunclosed : s.mode.admits .unclosedString = true := by
      rw [hmode]
      rfl
    have hprevious : s.previous ∈ s.mode.successors := by
      rw [hmode]
      rcases hs.previous hmode with h | h <;> rw [h] <;> decide
    have hne : s.previous ≠ s.mode := by
      rw [hmode]
      exact hs.previous_ne hmode
    rw [r.next_string hs hmode]
    split_ifs
    · exact ⟨fun h => absurd h hne, fun _ => Or.inl hunclosed, fun _ => hprevious⟩
    · exact ⟨fun h => absurd h hne, fun _ => Or.inl hstyle, fun _ => hprevious⟩
    · exact ⟨fun _ => hstyle, fun h => absurd rfl h, fun h => absurd rfl h⟩
  · have hall : ∀ mode : Mode, ∀ t ∈ mode.outcomes,
        (t.mode = mode → t.mode.admits t.style = true) ∧
          (t.mode ≠ mode → mode.admits t.style = true ∨ t.mode.admits t.style = true) ∧
          (t.mode ≠ mode → t.mode ∈ mode.successors) := by
      intro mode
      cases mode <;> decide
    obtain ⟨hwithin, hbetween, hchange⟩ := hall _ _ (r.transition_mem_outcomes hs hmode lexeme)
    exact ⟨hwithin, hbetween, hchange⟩

/-- The states of a run from a consistent state. -/
theorem isChain_states_of_consistent {s : State} (hs : s.Consistent) (lexemes : List Text) :
    ∃ ss, r.states s lexemes = .ok ss ∧ ss.length = lexemes.length ∧
      (∀ s' ∈ s :: ss, s'.Consistent) ∧ (s :: ss).IsChain State.LeadsTo := by
  induction lexemes generalizing s with
  | nil => exact ⟨[], rfl, rfl, by simpa using hs, List.isChain_singleton s⟩
  | cons lexeme lexemes ih =>
    obtain ⟨ss, hss, hlength, hconsistent, hchain⟩ := ih (r.consistent_next hs lexeme)
    refine ⟨r.next lexeme s :: ss, ?_, by rw [List.length_cons, List.length_cons, hlength], ?_, ?_⟩
    · simp only [states, r.step_eq_next hs, bind, Except.bind, hss]
      rfl
    · intro s' hs'
      rcases List.mem_cons.1 hs' with rfl | hs'
      · exact hs
      · exact hconsistent s' hs'
    · exact List.isChain_cons_cons.2 ⟨r.leadsTo_next hs lexeme, hchain⟩

/-- **Every run fits its modes.** From the initial state lexemes of any kind are stepped through
without a fault. Each step has a style that the modes around it admit and changes the mode only to a
successor. A string has the style of a quote and returns to a script or an expression, and a
language comment stands in the markup. -/
theorem isChain_states (lexemes : List Text) :
    ∃ ss, r.states .initial lexemes = .ok ss ∧ ss.length = lexemes.length ∧
      (∀ s ∈ State.initial :: ss, s.Consistent) ∧ (State.initial :: ss).IsChain State.LeadsTo :=
  r.isChain_states_of_consistent State.consistent_initial lexemes

end Registry

end TemplateStyler
