import TemplateStyler.Proofs.Lexeme.Agreement
import TemplateStyler.Proofs.Styler.Compose
import TemplateStyler.Text.Lines

/-!
# Registries with more names

A name that does not occur in a text has no say in how the text is shown: neither in the scan, whose
names are sorted anew with every addition, nor in what the modes look up.

* `Registry.transition_congr`: registries that agree on a lexeme move the state alike.
* `Registry.course_congr`: they take the same course through a text they agree on.
* `Registry.styleText_extend`: **names that do not occur in a text change nothing in it.**
-/

namespace TemplateStyler

open Text Lexeme

namespace Registry

/-! ### Lookups -/

theorem trim_isInfix (a : Text) : trim a <:+: a :=
  (List.rdropWhile_prefix isSpace _).isInfix.trans (List.dropWhile_suffix _).isInfix

theorem isInfix_of_dropSuffix? {suffix a b : Text} (h : dropSuffix? suffix a = some b) :
    b <:+: a := by
  rw [dropSuffix?] at h
  split at h
  · cases h
    exact (List.take_prefix _ a).isInfix
  · cases h

section Agreement

variable {r r' : Registry} {text part : Text} (h : r.AgreeOn r' text)

include h

theorem isArgumentTag_congr (hpart : part <:+: text) :
    r.isArgumentTag part = r'.isArgumentTag part :=
  Bool.eq_iff_iff.2 (by simpa [isArgumentTag] using h.argumentTags part hpart)

theorem isPlainTag_congr (hpart : part <:+: text) : r.isPlainTag part = r'.isPlainTag part :=
  Bool.eq_iff_iff.2 (by simpa [isPlainTag] using h.plainTags part hpart)

theorem isBuiltin_congr (hpart : part <:+: text) : r.isBuiltin part = r'.isBuiltin part :=
  Bool.eq_iff_iff.2 (by simpa [isBuiltin] using h.builtins part hpart)

theorem isHeaderKey_congr (hpart : part <:+: text) : r.isHeaderKey part = r'.isHeaderKey part :=
  Bool.eq_iff_iff.2 (by simpa [isHeaderKey] using h.headerKeys part hpart)

/-! ### Transitions -/

theorem headerTransition_congr : r.headerTransition text = r'.headerTransition text := by
  have hkey : r.isKeyLexeme text = r'.isKeyLexeme text := by
    rw [isKeyLexeme, isKeyLexeme]
    cases hdrop : dropSuffix? ['='] text with
    | none => rfl
    | some key =>
      exact isHeaderKey_congr h ((trim_isInfix key).trans (isInfix_of_dropSuffix? hdrop))
  rw [headerTransition, headerTransition, hkey]

theorem scriptTransition_congr (mode : Mode) :
    r.scriptTransition mode text = r'.scriptTransition mode text := by
  rw [scriptTransition, scriptTransition, isBuiltin_congr h List.infix_rfl]

theorem hashTransition_congr {name : Text} (hname : name <:+: text) :
    r.hashTransition name = r'.hashTransition name := by
  have hargument : (dropSuffix? ['{'] name).any r.isArgumentTag =
      (dropSuffix? ['{'] name).any r'.isArgumentTag := by
    cases hdrop : dropSuffix? ['{'] name with
    | none => rfl
    | some tag => exact isArgumentTag_congr h ((isInfix_of_dropSuffix? hdrop).trans hname)
  have hbase : Shape.baseName name <:+: text :=
    (List.takeWhile_prefix _).isInfix.trans hname
  rw [hashTransition, hashTransition, hargument, isPlainTag_congr h hbase,
    isArgumentTag_congr h hbase]

theorem markupTransition_congr : r.markupTransition text = r'.markupTransition text := by
  unfold markupTransition
  split
  · exact hashTransition_congr h (List.suffix_cons _ _).isInfix
  · rfl

/-- **Registries that agree on a lexeme move the state alike.** -/
theorem transition_congr (s : State) : r.transition text s = r'.transition text s := by
  have hopen : r.openTransition s.mode text = r'.openTransition s.mode text := by
    rw [openTransition, openTransition, scriptTransition_congr h, markupTransition_congr h]
  simp only [transition, headerTransition_congr h, hopen]

theorem next_congr (s : State) : r.next text s = r'.next text s := by
  rw [next, next, transition_congr h]

/-! ### Courses -/

theorem entries_congr (s : State) {ls : List Lexeme} (hls : ∀ l ∈ ls, l.text <:+: text) :
    r.entries s ls = r'.entries s ls := by
  induction ls generalizing s with
  | nil => rfl
  | cons l ls ih =>
    have hnext : r.next l.text s = r'.next l.text s := next_congr (h.mono (hls l (by simp))) s
    rw [entries, entries, hnext, ih _ fun l' hl' => hls l' (by simp [hl'])]

/-- **Registries that agree on a text take the same course through it.** -/
theorem course_congr : r.course text = r'.course text := by
  have hscan : r.grammar.scanText text = r'.grammar.scanText text :=
    Grammar.scan_congr h 0 true
  have hinfix : ∀ l ∈ r'.grammar.scanText text, l.text <:+: text := by
    intro l hl
    have := List.infix_of_mem_flatten (List.mem_map_of_mem (f := Lexeme.text) hl)
    rwa [Grammar.scanText, Grammar.flatten_scan] at this
  rw [course, course, hscan, entries_congr h _ hinfix]

end Agreement

/-! ### Additional names -/

theorem agreeOn_extend (r extra : Registry) {text : Text}
    (h : ∀ name ∈ extra.names, ¬ name <:+: text) : r.AgreeOn (r.extend extra) text := by
  have hname : ∀ {w : Text}, w <:+: text → w ∉ extra.names := fun hw hmem => h _ hmem hw
  simp only [names, List.mem_append, not_or] at hname
  constructor <;> intro w hw <;> simp [extend, hname hw]

/-- **Names that do not occur in a text change nothing in it.** Whatever names are added to a
registry, of any of the four kinds: scanning and styling succeed with the additions and without
them, the lexemes are the same, and so are the spans. -/
theorem styleText_extend (r extra : Registry) {text : Text}
    (h : ∀ name ∈ extra.names, ¬ name <:+: text) :
    ∃ lexemes spans,
      r.grammar.tokenize text = .ok lexemes ∧ r.styleText text = .ok spans ∧
      (r.extend extra).grammar.tokenize text = .ok lexemes ∧
      (r.extend extra).styleText text = .ok spans := by
  have hagree := agreeOn_extend r extra h
  obtain ⟨pass, -, -, hstyled, hspans, -⟩ := r.styleText_eq text
  obtain ⟨pass', -, -, hstyled', hspans', -⟩ := (r.extend extra).styleText_eq text
  refine ⟨_, pass.spans, Grammar.tokenize_eq _ _, hstyled, ?_, ?_⟩
  · rw [Grammar.tokenize_eq, Grammar.scanText, ← Grammar.scan_congr hagree]
    rfl
  · rw [hstyled', hspans', ← course_congr hagree, hspans]

/-- A longer name of each kind beside the one that occurs. -/
theorem styleText_extend_longer :
    let base : Registry :=
      { argumentTags := ["IF".toList], builtins := ["len".toList], headerKeys := ["ver".toList] }
    let extra : Registry :=
      { argumentTags := ["IFF".toList], plainTags := ["END".toList],
        builtins := ["lens".toList], headerKeys := ["version".toList] }
    (∀ name ∈ extra.names, ¬ name <:+: "#IF\x7blen(1)".toList) ∧
    ∃ lexemes spans,
      base.grammar.tokenize "#IF\x7blen(1)".toList = .ok lexemes ∧
      base.styleText "#IF\x7blen(1)".toList = .ok spans ∧
      spans = [⟨4, .tag⟩, ⟨3, .builtin⟩, ⟨1, .scriptBody⟩, ⟨1, .integer⟩, ⟨1, .scriptBody⟩] ∧
      (base.extend extra).grammar.tokenize "#IF\x7blen(1)".toList = .ok lexemes ∧
      (base.extend extra).styleText "#IF\x7blen(1)".toList = .ok spans := by
  intro base extra
  have h : ∀ name ∈ extra.names, ¬ name <:+: "#IF\x7blen(1)".toList := by decide
  obtain ⟨lexemes, spans, hlexemes, hspans, hlexemes', hspans'⟩ := styleText_extend base extra h
  refine ⟨h, lexemes, spans, hlexemes, hspans, ?_, hlexemes', hspans'⟩
  have hrun : base.styleText "#IF\x7blen(1)".toList = .ok
      [⟨4, .tag⟩, ⟨3, .builtin⟩, ⟨1, .scriptBody⟩, ⟨1, .integer⟩, ⟨1, .scriptBody⟩] := by
    decide +kernel
  exact Except.ok.inj (hspans.symm.trans hrun)

end Registry

end TemplateStyler
