import TemplateStyler.Proofs.State.Consistent

/-!
# Lexemes behind a step

Some styles and some changes of mode are given to few lexemes only. Here the step is read backwards:
from the state behind a lexeme to the look of the lexeme.

* `isRunOf_iff`: the runs of one character.
* `isRunOf_of_header_change`, `isRunOf_of_core_change`: equals signs lead into the header and out of
  it, angle brackets into the core block and out of it.
* `mode_next_dot`: a single dot changes no mode.
* `isPrefixOf_of_inclusion`: what is included starts with two dashes.
* `style_next_eq_headerKey_iff`: which lexemes are keys of the header.
* `style_next_ne_languageComment`: which lexemes start no language comment.
-/

namespace TemplateStyler

open Shape

/-! ### Runs of one character -/

theorem isRunOf_iff {c : Char} {n : Nat} {lexeme : List Char} :
    isRunOf c n lexeme = true ↔ ∃ k, n ≤ k ∧ lexeme = List.replicate k c := by
  rw [isRunOf, Bool.and_eq_true, decide_eq_true_eq, List.all_eq_true]
  constructor
  · rintro ⟨hlength, hall⟩
    exact ⟨_, hlength, List.eq_replicate_of_mem fun d hd => beq_iff_eq.1 (hall d hd)⟩
  · rintro ⟨k, hk, rfl⟩
    rw [List.length_replicate]
    exact ⟨hk, fun d hd => beq_iff_eq.2 (List.eq_of_mem_replicate hd)⟩

theorem isRunOf_cons_of_ne {c d : Char} (h : d ≠ c) (n : Nat) (cs : List Char) :
    isRunOf c n (d :: cs) = false := by
  simp [isRunOf, h]

theorem mem_of_isRunOf {c : Char} {n : Nat} {lexeme : List Char} (hn : 0 < n)
    (h : isRunOf c n lexeme = true) : c ∈ lexeme := by
  obtain ⟨k, hk, rfl⟩ := isRunOf_iff.1 h
  exact List.mem_replicate.2 ⟨by omega, rfl⟩

theorem exists_of_isRunOf {c : Char} {n : Nat} {lexeme : List Char} (hn : 2 ≤ n)
    (h : isRunOf c n lexeme = true) : ∃ rest, lexeme = c :: c :: rest := by
  obtain ⟨k, hk, rfl⟩ := isRunOf_iff.1 h
  obtain ⟨m, rfl⟩ := Nat.exists_eq_add_of_le' (Nat.le_trans hn hk)
  exact ⟨List.replicate m c, rfl⟩

/-! ### How the header and the core block are entered -/

/-- The styles of the marks of the core block that name a file or a directory. -/
def Style.inclusions : List Style := [.inclusion, .directoryChange, .disabledInclusion]

/-- A transition that leads into the header by equals signs, into the core block by angle brackets,
or into neither. -/
inductive Transition.LeadsBy (lexeme : List Char) (t : Transition) : Prop where
  | header (mode : t.mode = .header) (run : isRunOf '=' 3 lexeme = true)
  | core (mode : t.mode = .core) (run : isRunOf '<' 3 lexeme = true)
  | other (mode : t.mode ∉ [.header, .core])

theorem Transition.LeadsBy.ite {c : Prop} [Decidable c] {lexeme : List Char} {t u : Transition}
    (ht : c → t.LeadsBy lexeme) (hu : ¬ c → u.LeadsBy lexeme) :
    (if c then t else u).LeadsBy lexeme := by
  split
  · next hc => exact ht hc
  · next hc => exact hu hc

namespace Registry

variable {r : Registry} {lexeme : List Char} {s : State}

/-! ### The rule of a mode -/

theorem transition_header (hs : s.Consistent) (hmode : s.mode = .header) :
    r.transition lexeme s = r.headerTransition lexeme := by
  have hstyle : s.style ≠ .languageComment := fun h => by simp [hs.comment h] at hmode
  rw [transition, if_neg hstyle, hmode]

theorem transition_core (hs : s.Consistent) (hmode : s.mode = .core) :
    r.transition lexeme s = coreTransition lexeme := by
  have hstyle : s.style ≠ .languageComment := fun h => by simp [hs.comment h] at hmode
  rw [transition, if_neg hstyle, hmode]

theorem transition_open (hstyle : s.style ≠ .languageComment)
    (hmode : s.mode = .markup ∨ s.mode = .script ∨ s.mode = .expression) :
    r.transition lexeme s = r.openTransition s.mode lexeme := by
  rw [transition, if_neg hstyle]
  rcases hmode with h | h | h <;> rw [h]

/-- In a string a lexeme has the style of the quote or of an unclosed string, and the string goes on
or ends in a script. -/
theorem next_of_string (hs : s.Consistent) (hmode : s.mode = .string) :
    ((r.next lexeme s).style = .unclosedString ∨
      (r.next lexeme s).style.closingQuote?.isSome = true) ∧
    (r.next lexeme s).mode ∈ [.string, .script, .expression] := by
  have hquote := hs.quote hmode
  have hprevious : s.previous ∈ [Mode.string, .script, .expression] := by
    rcases hs.previous hmode with h | h <;> rw [h] <;> decide
  rw [r.next_string hs hmode]
  split_ifs
  · exact ⟨Or.inl rfl, hprevious⟩
  · exact ⟨Or.inr hquote, hprevious⟩
  · exact ⟨Or.inr hquote, by rw [hmode]; decide⟩

/-! ### Changes of mode -/

theorem openTransition_markup :
    r.openTransition .markup lexeme =
      if isRunOf '.' 4 lexeme then ⟨.blockDelimiter, .script⟩
      else if lexeme = "#PYTHON".toList then ⟨.blockDelimiter, .script⟩
      else r.markupTransition lexeme := by
  simp only [openTransition, reduceCtorEq, false_and, or_false, if_false]

theorem leadsBy_hash (name : List Char) : (r.hashTransition name).LeadsBy lexeme := by
  unfold hashTransition
  iterate 5 refine .ite (fun _ => .other (by decide)) fun _ => ?_
  exact .other (by decide)

/-- From the markup nothing else leads into the header or the core block. -/
theorem leadsBy_open_markup (lexeme : List Char) :
    (r.openTransition .markup lexeme).LeadsBy lexeme := by
  rw [openTransition_markup]
  iterate 2 refine .ite (fun _ => .other (by decide)) fun _ => ?_
  unfold markupTransition
  split
  · exact r.leadsBy_hash _
  · iterate 8 refine .ite (fun _ => .other (by decide)) fun _ => ?_
    refine .ite (fun hequals => .header rfl hequals) fun _ => ?_
    exact .ite (fun hangle => .core rfl hangle) fun _ => .other (by decide)

/-- The header and the core block are entered from the markup. -/
theorem markup_of_mode_next (hs : s.Consistent)
    (hmode : (r.next lexeme s).mode = .header ∨ (r.next lexeme s).mode = .core)
    (hne : (r.next lexeme s).mode ≠ s.mode) :
    s.mode = .markup ∧ r.transition lexeme s = r.openTransition .markup lexeme := by
  have hstring : s.mode ≠ .string := by
    intro hstring
    have hmem : (r.next lexeme s).mode ∈ [.string, .script, .expression] :=
      (r.next_of_string hs hstring).2
    rcases hmode with h | h <;> rw [h] at hmem <;> simp at hmem
  have hall : ∀ mode : Mode, ∀ t ∈ mode.outcomes, t.mode = .header ∨ t.mode = .core →
      t.mode ≠ mode → mode = .markup := by
    intro mode
    cases mode <;> decide
  have hmarkup := hall _ _ (r.transition_mem_outcomes hs hstring lexeme) hmode hne
  have hstyle : s.style ≠ .languageComment := by
    intro hstyle
    have hkept : (r.next lexeme s).mode = .markup := by
      rw [next, transition, if_pos hstyle]
      split_ifs <;> rfl
    exact hne (hkept.trans hmarkup.symm)
  refine ⟨hmarkup, ?_⟩
  rw [r.transition_open hstyle (Or.inl hmarkup), hmarkup]

/-- The header and the core block are left, or entered from the markup. -/
theorem cases_of_change (hs : s.Consistent) {mode : Mode} (hmode : mode = .header ∨ mode = .core)
    (h : ¬ (s.mode = mode ↔ (r.next lexeme s).mode = mode)) :
    (s.mode = mode ∧ (r.next lexeme s).mode ≠ mode) ∨
      ((r.transition lexeme s).mode = mode ∧ (r.transition lexeme s).LeadsBy lexeme) := by
  by_cases hbefore : s.mode = mode
  · exact Or.inl ⟨hbefore, fun hafter => h (iff_of_true hbefore hafter)⟩
  · have hafter : (r.next lexeme s).mode = mode :=
      by_contra fun hafter => h (iff_of_false hbefore hafter)
    obtain ⟨-, htransition⟩ := r.markup_of_mode_next hs (by rwa [hafter])
      (by rw [hafter]; exact Ne.symm hbefore)
    refine Or.inr ⟨hafter, ?_⟩
    rw [htransition]
    exact r.leadsBy_open_markup lexeme

/-- **The header is entered and left by a run of equals signs.** -/
theorem isRunOf_of_header_change (hs : s.Consistent)
    (h : ¬ (s.mode = .header ↔ (r.next lexeme s).mode = .header)) :
    isRunOf '=' 3 lexeme = true := by
  obtain ⟨hmode, hleft⟩ | ⟨hentered, hby⟩ := r.cases_of_change hs (Or.inl rfl) h
  · by_contra hrun
    refine hleft ?_
    rw [next, r.transition_header hs hmode, headerTransition, if_neg hrun]
    split_ifs <;> rfl
  · cases hby with
    | header _ hrun => exact hrun
    | core hcore => cases hentered.symm.trans hcore
    | other hother => exact absurd (hentered ▸ List.mem_cons_self) hother

/-- **The core block is entered and left by a run of angle brackets.** -/
theorem isRunOf_of_core_change (hs : s.Consistent)
    (h : ¬ (s.mode = .core ↔ (r.next lexeme s).mode = .core)) :
    isRunOf '<' 3 lexeme = true ∨ isRunOf '>' 3 lexeme = true := by
  obtain ⟨hmode, hleft⟩ | ⟨hentered, hby⟩ := r.cases_of_change hs (Or.inr rfl) h
  · refine Or.inr ?_
    by_contra hrun
    refine hleft ?_
    rw [next, r.transition_core hs hmode, coreTransition]
    split_ifs <;> rfl
  · cases hby with
    | header hheader => cases hentered.symm.trans hheader
    | core _ hrun => exact Or.inl hrun
    | other hother => exact absurd (hentered ▸ List.mem_of_getLast? rfl) hother

/-- In scripts and expressions a lexeme changes the mode only if it is a quote. -/
theorem mode_scriptTransition (mode : Mode) (h : Style.ofQuote? lexeme = none) :
    (r.scriptTransition mode lexeme).mode = mode := by
  rw [scriptTransition, h]
  split_ifs <;> rfl

/-- **A single dot changes no mode**: it is too short to open or close a script. -/
theorem mode_next_dot (hs : s.Consistent) : (r.next ['.'] s).mode = s.mode := by
  by_cases hcomment : s.style = .languageComment
  · rw [hs.comment hcomment, next, transition, if_pos hcomment]
    rfl
  have hopen : r.openTransition s.mode ['.'] =
      if s.mode = .script ∨ s.mode = .expression then r.scriptTransition s.mode ['.']
      else ⟨.plain, .markup⟩ := by
    simp [openTransition, isRunOf]
    rfl
  cases hmode : s.mode with
  | string =>
    have hclose : s.style.closingQuote? ≠ some ['.'] := by cases s.style <;> decide
    rw [r.next_string hs hmode, if_neg (by simp [isNewline]), if_neg hclose, hmode]
  | core =>
    rw [next, r.transition_core hs hmode]
    rfl
  | header =>
    rw [next, r.transition_header hs hmode, headerTransition]
    split_ifs <;> first | rfl | contradiction
  | markup =>
    rw [next, r.transition_open hcomment (Or.inl hmode), hopen, hmode]
    rfl
  | script =>
    rw [next, r.transition_open hcomment (Or.inr (Or.inl hmode)), hopen, hmode, if_pos (Or.inl rfl)]
    exact r.mode_scriptTransition .script rfl
  | expression =>
    rw [next, r.transition_open hcomment (Or.inr (Or.inr hmode)), hopen, hmode, if_pos (Or.inr rfl)]
    exact r.mode_scriptTransition .expression rfl

/-! ### Styles -/

/-- A style that no quote gives is given outside of strings. -/
theorem mode_ne_string_of_style (hs : s.Consistent)
    (hquote : (r.next lexeme s).style.closingQuote? = none)
    (hunclosed : (r.next lexeme s).style ≠ .unclosedString) : s.mode ≠ .string := by
  intro hmode
  rcases (r.next_of_string hs hmode).1 with h | h
  · exact hunclosed h
  · rw [hquote] at h
    cases h

/-- **What is included or disabled starts with two dashes**, behind an exclamation mark where it is
disabled. -/
theorem isPrefixOf_of_inclusion (hs : s.Consistent)
    (h : (r.next lexeme s).style ∈ Style.inclusions) :
    ['-', '-'].isPrefixOf lexeme = true ∨ ['!', '-', '-'].isPrefixOf lexeme = true := by
  have hstyle : ∀ style ∈ Style.inclusions, style.closingQuote? = none ∧
      style ≠ .unclosedString := by decide
  have hall : ∀ mode : Mode, ∀ t ∈ mode.outcomes, t.style ∈ Style.inclusions → mode = .core := by
    intro mode
    cases mode <;> decide
  have hmode := hall _ _ (r.transition_mem_outcomes hs
    (r.mode_ne_string_of_style hs (hstyle _ h).1 (hstyle _ h).2) lexeme) h
  rw [next, r.transition_core hs hmode, coreTransition] at h
  simp only [Bool.and_eq_true] at h
  split_ifs at h with hdisabled hdirectory hinclusion
  · exact Or.inr hdisabled
  · exact Or.inl hdirectory.1
  · exact Or.inl hinclusion.1.1
  · simp [Style.inclusions] at h
  · simp [Style.inclusions] at h

/-- **Which lexemes are keys of the header.** -/
theorem style_next_eq_headerKey_iff (hs : s.Consistent) :
    (r.next lexeme s).style = .headerKey ↔ s.mode = .header ∧ isRunOf '=' 3 lexeme = false ∧
      isComment lexeme = false ∧ r.isKeyLexeme lexeme = true := by
  have hheader : s.mode = .header → ((r.next lexeme s).style = .headerKey ↔
      isRunOf '=' 3 lexeme = false ∧ isComment lexeme = false ∧ r.isKeyLexeme lexeme = true) := by
    intro hmode
    rw [next, r.transition_header hs hmode, headerTransition]
    split_ifs <;> simp_all
  constructor
  · intro h
    have hall : ∀ mode : Mode, ∀ t ∈ mode.outcomes, t.style = .headerKey → mode = .header := by
      intro mode
      cases mode <;> decide
    have hmode := hall _ _ (r.transition_mem_outcomes hs
      (r.mode_ne_string_of_style hs (by rw [h]; rfl) (by rw [h]; decide)) lexeme) h
    exact ⟨hmode, (hheader hmode).1 h⟩
  · exact fun h => (hheader h.1).2 h.2

theorem style_markupTransition_ne (hpercent : lexeme.head? ≠ some '%')
    (hnumber : lexeme.head? ≠ some '#') :
    (r.markupTransition lexeme).style ≠ .languageComment := by
  have hite : ∀ {c : Prop} [Decidable c] {t u : Transition}, (c → t.style ≠ .languageComment) →
      u.style ≠ .languageComment → (if c then t else u).style ≠ .languageComment := by
    intro c _ t u ht hu
    split
    · next hc => exact ht hc
    · exact hu
  unfold markupTransition
  split
  · exact absurd rfl hnumber
  · iterate 6 refine hite (fun _ => Style.noConfusion) ?_
    refine hite (fun hlexeme => ?_) ?_
    · rw [hlexeme] at hpercent
      exact absurd rfl hpercent
    · iterate 3 refine hite (fun _ => Style.noConfusion) ?_
      exact Style.noConfusion

/-- **A language comment starts with a percent sign or a number sign.** -/
theorem style_next_ne_languageComment (hs : s.Consistent) (hstyle : s.style ≠ .languageComment)
    (hpercent : lexeme.head? ≠ some '%') (hnumber : lexeme.head? ≠ some '#') :
    (r.next lexeme s).style ≠ .languageComment := by
  intro h
  have hall : ∀ mode : Mode, ∀ t ∈ mode.outcomes, t.style = .languageComment → mode = .markup := by
    intro mode
    cases mode <;> decide
  have hmode := hall _ _ (r.transition_mem_outcomes hs
    (r.mode_ne_string_of_style hs (by rw [h]; rfl) (by rw [h]; decide)) lexeme) h
  replace h : (r.transition lexeme s).style = .languageComment := h
  rw [r.transition_open hstyle (Or.inl hmode), hmode, openTransition_markup] at h
  split_ifs at h
  exact r.style_markupTransition_ne hpercent hnumber h

end Registry

end TemplateStyler
