import TemplateStyler.Proofs.Directive.Hidden
import TemplateStyler.Proofs.Lexeme.Identifiers
import TemplateStyler.Proofs.Lexeme.LineStart
import TemplateStyler.Proofs.State.Causes
import TemplateStyler.Proofs.Styler.Compose
import TemplateStyler.Proofs.Styler.Literal

/-!
# Names as the scanner and the state see them

The rules of the scanner and the tests of the state both know the names of a registry. A tag with an
argument and a key of the header are scanned as one lexeme that the state then has to take apart
again. Where the names are identifiers the two agree.

* `next_tag`, `mode_next_word`: the state behind a number sign and a word, with its brace and
  without.
* `style_next_keyText`, `keyText_of_style_next`: in the header, a lexeme is a key if and only if it
  is a key text. The state takes the name off it by its last character, so that the converse needs
  that no other rule of the scanner ends a lexeme there.
* `names_agree`: **tags with an argument and keys are styled as such exactly where they are
  written.**
-/

namespace TemplateStyler

open Text Lexeme Shape

namespace Registry

variable {r : Registry} {s : State}

/-! ### Tags with an argument -/

theorem dropSuffix?_eq_some_iff {suffix cs a : Text} :
    dropSuffix? suffix cs = some a ↔ cs = a ++ suffix := by
  rw [dropSuffix?]
  constructor
  · intro h
    split at h
    · next hsuffix =>
      obtain ⟨front, rfl⟩ := List.isSuffixOf_iff_suffix.1 hsuffix
      rw [List.length_append, Nat.add_sub_cancel, List.take_left, Option.some.injEq] at h
      rw [h]
    · cases h
  · rintro rfl
    rw [if_pos (List.isSuffixOf_iff_suffix.2 (List.suffix_append a suffix)), List.length_append,
      Nat.add_sub_cancel, List.take_left]

theorem head?_any_isBlank {w : Text} (hw : ∀ c ∈ w, isWord c = true) (hne : w ≠ []) (b : Text) :
    (w ++ b).head?.any isBlank = false := by
  obtain ⟨c, cs, rfl⟩ := List.exists_cons_of_ne_nil hne
  refine Bool.eq_false_iff.2 fun hblank => ?_
  have hc := hw c List.mem_cons_self
  rcases Bool.or_eq_true_iff.1 hblank with h | h <;> rw [beq_iff_eq.1 h] at hc <;> cases hc

/-- A tag with its brace opens an expression. -/
theorem next_tag (hmode : s.mode = .markup) (hstyle : s.style ≠ .languageComment) {w : Text}
    (hne : w ≠ []) (hw : ∀ c ∈ w, isWord c = true) (htag : w ∈ r.argumentTags) :
    (r.next ('#' :: (w ++ ['{'])) s).style = .tag ∧
      (r.next ('#' :: (w ++ ['{'])) s).mode = .expression := by
  have hpython : '#' :: (w ++ ['{']) ≠ "#PYTHON".toList := fun h => by
    have hlast := congrArg List.getLast? h
    rw [← List.cons_append, List.getLast?_concat] at hlast
    cases hlast
  have hbrace : w ++ ['{'] ≠ ['{'] := fun h => hne (by simpa using h)
  have hargument : (dropSuffix? ['{'] (w ++ ['{'])).any r.isArgumentTag = true := by
    rw [dropSuffix?_eq_some_iff.2 rfl, Option.any_some, isArgumentTag, List.contains_iff_mem]
    exact htag
  have hblank := head?_any_isBlank hw hne ['{']
  have htransition : r.transition ('#' :: (w ++ ['{'])) s = ⟨.tag, .expression⟩ := by
    rw [r.transition_open hstyle (Or.inl hmode), hmode, openTransition_markup,
      if_neg (by simp [isRunOf]), if_neg hpython, markupTransition, hashTransition,
      if_neg (by rw [hblank]; exact Bool.false_ne_true), if_neg hbrace, if_pos hargument]
  rw [next, htransition]
  exact ⟨rfl, rfl⟩

/-- A number sign and a word without its brace open none. -/
theorem mode_next_word (hmode : s.mode = .markup) (hstyle : s.style ≠ .languageComment) {w : Text}
    (hne : w ≠ []) (hw : ∀ c ∈ w, isWord c = true) :
    (r.next ('#' :: w) s).mode ≠ .expression := by
  have hbrace : '{' ∉ w := fun hmem => absurd (hw _ hmem) (by decide)
  have hargument : dropSuffix? ['{'] w = none := by
    refine if_neg fun hsuffix => hbrace ?_
    exact (List.isSuffixOf_iff_suffix.1 hsuffix).subset List.mem_cons_self
  have hblank := head?_any_isBlank hw hne []
  rw [List.append_nil] at hblank
  have htransition : (r.transition ('#' :: w) s).mode ≠ .expression := by
    rw [r.transition_open hstyle (Or.inl hmode), hmode, openTransition_markup,
      if_neg (by simp [isRunOf])]
    split
    · exact Mode.noConfusion
    · rw [markupTransition, hashTransition, if_neg (by simp [hblank]),
        if_neg fun h => hbrace (by rw [h]; exact List.mem_cons_self), hargument,
        if_neg (by simp)]
      split_ifs <;> exact Mode.noConfusion
  exact htransition

/-! ### Keys of the header -/

theorem isKeyLexeme_iff {lexeme : Text} :
    r.isKeyLexeme lexeme = true ↔ ∃ a, lexeme = a ++ ['='] ∧ trim a ∈ r.headerKeys := by
  rw [isKeyLexeme]
  cases hdrop : dropSuffix? ['='] lexeme with
  | none =>
    refine iff_of_false Bool.false_ne_true ?_
    rintro ⟨a, ha, -⟩
    rw [dropSuffix?_eq_some_iff.2 ha] at hdrop
    cases hdrop
  | some a =>
    simp only [isHeaderKey, List.contains_iff_mem]
    constructor
    · exact fun h => ⟨a, dropSuffix?_eq_some_iff.1 hdrop, h⟩
    · rintro ⟨a', ha', hkey⟩
      rw [dropSuffix?_eq_some_iff.2 ha', Option.some.injEq] at hdrop
      rwa [← hdrop]

/-- In the header a key text is a key. -/
theorem style_next_keyText (hr : r.Identifiers) (hs : s.Consistent) (hmode : s.mode = .header)
    {w : Text} (hw : r.IsKeyText w) : (r.next w s).style = .headerKey := by
  obtain ⟨front, key, back, rfl, hfront, hkey, hback⟩ := hw
  have hidentifier := hr.headerKeys key hkey
  obtain ⟨c, key', rfl, hc⟩ := hidentifier.exists_cons
  have hspaces : ∀ {blanks : Text}, (∀ c ∈ blanks, isBlank c = true) →
      ∀ c ∈ blanks, isSpace c = true := fun h c hc => isSpace_of_isBlank (h c hc)
  have hword : ∀ d ∈ c :: key', isSpace d = false := fun d hd =>
    Queue.isSpace_of_word (hidentifier.all d hd)
  have hequals : c ≠ '=' ∧ c ≠ '#' := by
    constructor <;> rintro rfl <;> cases hc
  refine (r.style_next_eq_headerKey_iff hs).2 ⟨hmode, ?_, ?_, ?_⟩
  · simp [isRunOf, hequals.1]
  · rw [isComment, trimStart, List.dropWhile_append_of_pos (hspaces hfront), List.cons_append,
      List.dropWhile_cons_of_neg (by simp [hword c List.mem_cons_self])]
    simp [hequals.2]
  · refine isKeyLexeme_iff.2 ⟨front ++ (c :: key') ++ back, by simp, ?_⟩
    rw [trim_append (hspaces hfront) (hspaces hback), trim_eq_self hword]
    exact hkey

/-- **Only a key text at a line start is a key**, in the header. -/
theorem keyText_of_style_next (hr : r.Identifiers) (hs : s.Consistent) {text : Text} {l : Lexeme}
    (htaken : l.Taken r.grammar text) (h : (r.next l.text s).style = .headerKey) :
    s.mode = .header ∧ r.IsKeyText l.text ∧
      ∃ a b, text = a ++ (l.text ++ b) ∧ WholeLines a ∧ l.start = byteSize a := by
  obtain ⟨hmode, hrun, hcomment, hkey⟩ := (r.style_next_eq_headerKey_iff hs).1 h
  obtain ⟨x, hx, hname⟩ := isKeyLexeme_iff.1 hkey
  obtain ⟨a, b, htext, hstart, hfound⟩ := htaken
  obtain ⟨rule, -, hrule⟩ := List.exists_of_findSome?_eq_some hfound
  have hequals : '=' ∈ l.text := by
    rw [hx]
    exact List.mem_append_right _ List.mem_cons_self
  rcases Rule.cases_of_equals hrule hequals with h | h | h | rfl
  · rw [h] at hcomment
    cases hcomment
  · rw [h] at hrun
    cases hrun
  · -- no key is empty
    have hnil : x = [] := by simpa [hx] using h
    rw [hnil] at hname
    cases (hr.headerKeys _ hname).head
  · obtain ⟨hline, hkeyText⟩ := isKeyText_of_extent? hrule
    exact ⟨hmode, hkeyText, a, b, htext, hline, hstart⟩

/-! ### Whole texts -/

/-- The lexeme of a number sign, a word and a brace in the markup. -/
theorem next_hashWord (hr : r.Identifiers) {text : Text} {l : Lexeme}
    (htaken : l.Taken r.grammar text) (hmode : s.mode = .markup)
    (hstyle : s.style ≠ .languageComment) {a w b : Text}
    (htext : text = a ++ '#' :: (w ++ '{' :: b))
    (hstart : byteSize a = l.start) (hne : w ≠ []) (hw : ∀ c ∈ w, isWord c = true) :
    ((r.next l.text s).mode = .expression ↔ w ∈ r.argumentTags) ∧
      (w ∈ r.argumentTags → l.text = '#' :: (w ++ ['{']) ∧ (r.next l.text s).style = .tag) := by
  obtain ⟨before, behind, hsplit, hstart', hfound⟩ := htaken
  obtain ⟨rfl, hrest⟩ : a = before ∧ '#' :: (w ++ '{' :: b) = l.text ++ behind := by
    have hcut := cut?_append a ('#' :: (w ++ '{' :: b))
    rw [← htext, hsplit, hstart.trans hstart', cut?_append] at hcut
    rw [Option.some.injEq, Prod.mk.injEq] at hcut
    exact ⟨hcut.1.symm, hcut.2.symm⟩
  rw [← hrest, Grammar.findSome?_hashWord hr _ hne hw, Option.some.injEq] at hfound
  by_cases htag : w ∈ r.argumentTags
  · have hl : l.text = '#' :: (w ++ ['{']) := by
      rw [if_pos htag] at hfound
      have hwhole : l.text ++ behind = '#' :: (w ++ ['{']) ++ b := by
        rw [← hrest]
        simp
      exact (List.append_inj hwhole (by rw [← hfound]; simp)).1
    rw [hl]
    obtain ⟨htagged, hopened⟩ := r.next_tag hmode hstyle hne hw htag
    exact ⟨iff_of_true hopened htag, fun _ => ⟨rfl, htagged⟩⟩
  · have hl : l.text = '#' :: w := by
      rw [if_neg htag] at hfound
      have hwhole : l.text ++ behind = '#' :: w ++ '{' :: b := hrest.symm
      exact (List.append_inj hwhole (by rw [← hfound]; simp)).1
    rw [hl]
    exact ⟨iff_of_false (r.mode_next_word hmode hstyle hne hw) htag, fun h => absurd h htag⟩

/-- A byte of a key lies in a key text at a line start of the header. -/
theorem exists_keyText_of_colours (hr : r.Identifiers) {text : Text} {i : Nat}
    (h : (r.colours text)[i]? = some .headerKey) :
    ∃ a w b s, text = a ++ (w ++ b) ∧ WholeLines a ∧ r.IsKeyText w ∧ byteSize a ≤ i ∧
      i < byteSize (a ++ w) ∧
      r.walk .initial ((r.grammar.scanText text).filter fun l => l.stop ≤ byteSize a) = .ok s ∧
      s.mode = .header := by
  have hi : i < total ((r.course text).map Entry.lexeme) := by
    rw [← Trace.length_colours]
    exact (List.getElem?_eq_some_iff.1 h).1
  obtain ⟨front, e, rest, hcourse, hle, hlt⟩ := Trace.exists_entry hi
  rw [colours, hcourse, Trace.getElem?_colours_entry front e rest hle hlt, Option.some.injEq,
    Trace.shown] at h
  have hmem : e ∈ r.course text := by
    rw [hcourse]
    exact List.mem_append_right _ List.mem_cons_self
  obtain ⟨hs, hnext⟩ := r.step_of_mem_entries State.consistent_initial hmem
  have hstyle : (r.next e.lexeme.text e.before).style = .headerKey := by
    rw [← hnext]
    split at h
    · cases h
    · exact h
  obtain ⟨hmode, hw, a, b, htext, ha, hstart⟩ := keyText_of_style_next hr hs
    (Grammar.taken_of_mem_scanText (r.lexeme_mem_of_mem_entries hmem)) hstyle
  have hwalk := walk_of_mem_course hmem
  rw [← start_of_course_eq hcourse, hstart] at hle hlt
  rw [hstart] at hwalk
  exact ⟨a, e.lexeme.text, b, e.before, htext, ha, hw, hle, by rwa [byteSize_append], hwalk, hmode⟩

/-- At a line start a key text is an entry of its own. -/
theorem exists_course_keyText (hr : r.Identifiers) {a w : Text} (ha : WholeLines a)
    (hw : r.IsKeyText w) (b : Text) :
    ∃ rest, r.course (a ++ (w ++ b)) =
      r.course a ++ ⟨⟨byteSize a, w⟩, r.stateAfter a, r.next w (r.stateAfter a)⟩ :: rest := by
  have hextent : r.grammar.extent true (w ++ b) = w.length := by
    rw [Grammar.extent, Grammar.findSome?_keyText hr hw b, Option.getD_some]
    exact Nat.max_eq_right (List.length_pos_iff.2 hw.ne_nil)
  rw [course_append hr.onOneLine ha, Grammar.scan_of_extent hw.ne_nil hextent (byteSize a)]
  exact ⟨_, rfl⟩

/-- **The bytes of keys** are those of the key texts at the line starts of the header. -/
theorem getElem?_colours_eq_headerKey_iff (hr : r.Identifiers) (text : Text) (i : Nat) :
    (r.colours text)[i]? = some .headerKey ↔
      ∃ a w b s, text = a ++ (w ++ b) ∧ WholeLines a ∧ r.IsKeyText w ∧ byteSize a ≤ i ∧
        i < byteSize (a ++ w) ∧
        r.walk .initial ((r.grammar.scanText text).filter fun l => l.stop ≤ byteSize a) = .ok s ∧
        s.mode = .header := by
  refine ⟨exists_keyText_of_colours hr, ?_⟩
  rintro ⟨a, w, b, s, rfl, ha, hw, hle, hlt, hwalk, hmode⟩
  obtain ⟨rest, hcourse⟩ := exists_course_keyText hr ha hw b
  -- the state at the line start is the one before the key
  obtain rfl : r.stateAfter a = s := by
    have hmem : (⟨⟨byteSize a, w⟩, r.stateAfter a, r.next w (r.stateAfter a)⟩ : Entry) ∈
        r.course (a ++ (w ++ b)) := by
      rw [hcourse]
      exact List.mem_append_right _ List.mem_cons_self
    exact Except.ok.inj ((walk_of_mem_course hmem).symm.trans hwalk)
  have hs := r.consistent_stateAfter a
  have hstring : (r.next w (r.stateAfter a)).mode ≠ .string := by
    intro hstring
    have hscript := (r.quote_of_next hs (by rw [hmode]; decide) hstring).2
    rw [hmode] at hscript
    simp at hscript
  have htotal : total ((r.course a).map Entry.lexeme) = byteSize a := by
    rw [course, map_lexeme_entries]
    exact Grammar.total_scan _ _ _ _
  rw [byteSize_append] at hlt
  rw [colours, hcourse, Trace.getElem?_colours_entry _ _ _ (htotal.symm ▸ hle)
    (htotal.symm ▸ hlt), Trace.shown, if_neg fun h => hstring h.1,
    style_next_keyText hr hs hmode hw]

/-- **The scanner and the state agree on names.** In a registry whose tags with an argument and keys
of the header are identifiers, a number sign of the markup, outside of language comments, with a
word and a brace behind it opens an expression if and only if the word is a tag with an argument;
then the three are one lexeme, which is styled as a tag. The bytes that are styled as keys are those
of the key texts that stand at a line start of the header. -/
theorem names_agree (hr : r.Identifiers) (text : Text) :
    ∃ ls t spans, r.grammar.lexemes text 0 (byteSize text) = .ok ls ∧ r.trace .initial ls = .ok t ∧
      r.styleText text = .ok spans ∧
      (∀ e ∈ t, e.before.mode = .markup → e.before.style ≠ .languageComment →
        ∀ a w b, text = a ++ '#' :: (w ++ '{' :: b) → byteSize a = e.lexeme.start → w ≠ [] →
          (∀ c ∈ w, isWord c = true) →
          (e.after.mode = .expression ↔ w ∈ r.argumentTags) ∧
            (w ∈ r.argumentTags → e.lexeme.text = '#' :: (w ++ ['{']) ∧ e.after.style = .tag)) ∧
      ∀ i, (Span.colours spans)[i]? = some .headerKey ↔
        ∃ a w b s, text = a ++ (w ++ b) ∧ WholeLines a ∧ r.IsKeyText w ∧ byteSize a ≤ i ∧
          i < byteSize (a ++ w) ∧
          r.walk .initial (ls.filter fun l => l.stop ≤ byteSize a) = .ok s ∧ s.mode = .header := by
  have hlexemes := r.grammar.lexemes_wholeLines wholeLines_nil text
  rw [List.nil_append, byteSize_nil] at hlexemes
  obtain ⟨pass, -, -, hstyled, hspans, -⟩ := r.styleText_eq text
  refine ⟨_, r.course text, pass.spans, hlexemes, r.trace_eq_entries State.consistent_initial _,
    hstyled, ?_, fun i => ?_⟩
  · intro e he hmode hstyle a w b htext hstart hne hw
    obtain ⟨-, hnext⟩ := r.step_of_mem_entries State.consistent_initial he
    rw [hnext]
    exact r.next_hashWord hr (Grammar.taken_of_mem_scanText (r.lexeme_mem_of_mem_entries he)) hmode
      hstyle htext hstart hne hw
  · rw [hspans, Trace.colours_lexemeSpans]
    exact getElem?_colours_eq_headerKey_iff hr text i

/-- A key behind a blank, a word that only starts with a tag, and the tag. -/
theorem names_agree_ask :
    ∃ (r : Registry) (text : Text) (t : Trace) (spans : List Span) (longer tag : Entry),
      r = { argumentTags := ["ask".toList], headerKeys := ["key".toList] } ∧ r.Identifiers ∧
      text = "===\n key=1\n===\n#asked\x7b#ask\x7b".toList ∧ r.styleText text = .ok spans ∧
      longer ∈ t ∧ longer.lexeme.start = 15 ∧ longer.after.mode ≠ .expression ∧
      tag ∈ t ∧ tag.lexeme = ⟨22, "#ask\x7b".toList⟩ ∧ tag.after.mode = .expression ∧
      tag.after.style = .tag ∧ ∀ i, 4 ≤ i → i < 9 → (Span.colours spans)[i]? = some .headerKey := by
  obtain ⟨r, hregistry⟩ : ∃ r : Registry,
      r = { argumentTags := ["ask".toList], headerKeys := ["key".toList] } := ⟨_, rfl⟩
  obtain ⟨text, htext⟩ : ∃ text : Text, text = "===\n key=1\n===\n#asked\x7b#ask\x7b".toList :=
    ⟨_, rfl⟩
  have hr : r.Identifiers := by
    rw [hregistry]
    constructor <;>
      exact fun name hname => List.mem_singleton.1 hname ▸ ⟨rfl, List.all_eq_true.1 rfl⟩
  obtain ⟨ls, t, spans, hls, ht, hstyled, htags, hkeys⟩ := names_agree hr text
  have hrun : (do
      let ls ← r.grammar.lexemes text 0 (byteSize text)
      let t ← r.trace .initial ls
      let s ← r.walk .initial (ls.filter fun l => l.stop ≤ 4)
      return decide (s.mode = .header ∧
        (∃ e ∈ t, e.lexeme.start = 15 ∧ e.before.mode = .markup ∧
          e.before.style ≠ .languageComment) ∧
        ∃ e ∈ t, e.lexeme.start = 22 ∧ e.before.mode = .markup ∧
          e.before.style ≠ .languageComment) : Except Fault Bool) = .ok true := by
    rw [hregistry, htext]
    decide +kernel
  rw [hls] at hrun
  simp only [Fault.ok_bind, ht, Fault.bind_eq_ok_iff] at hrun
  obtain ⟨s, hs, heq⟩ := hrun
  obtain ⟨hheader, ⟨longer, hlonger, hstart, hmode, hstyle⟩, tag, htag, hstart', hmode', hstyle'⟩ :=
    of_decide_eq_true (Except.ok.inj heq)
  obtain ⟨hopens, -⟩ := htags longer hlonger hmode hstyle "===\n key=1\n===\n".toList
    "asked".toList "#ask\x7b".toList htext (hstart ▸ by decide) (by decide)
    (List.all_eq_true.1 rfl)
  obtain ⟨hopens', htagged⟩ := htags tag htag hmode' hstyle' "===\n key=1\n===\n#asked\x7b".toList
    "ask".toList [] htext (hstart' ▸ by decide) (by decide) (List.all_eq_true.1 rfl)
  have hask : "ask".toList ∈ r.argumentTags := by rw [hregistry]; decide
  have hasked : "asked".toList ∉ r.argumentTags := by rw [hregistry]; decide
  have hkey : r.IsKeyText " key=".toList :=
    ⟨[' '], "key".toList, [], rfl, List.all_eq_true.1 rfl, by rw [hregistry]; decide,
      List.forall_mem_nil _⟩
  obtain ⟨hlexeme, htagStyle⟩ := htagged hask
  refine ⟨r, text, t, spans, longer, tag, hregistry, hr, htext, hstyled, hlonger, hstart,
    fun h => hasked (hopens.1 h), htag, ?_, hopens'.2 hask, htagStyle, fun i hi hi' => ?_⟩
  · obtain ⟨⟨start, lexeme⟩, before, after⟩ := tag
    simp only at hstart' hlexeme
    rw [hstart', hlexeme]
    rfl
  · exact (hkeys i).2 ⟨"===\n".toList, " key=".toList, "1\n===\n#asked\x7b#ask\x7b".toList, s,
      htext, by decide, hkey, hi, hi', hs, hheader⟩

end Registry

end TemplateStyler
