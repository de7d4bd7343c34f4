import Mathlib.Data.List.Forall2
import TemplateStyler.Proofs.Directive.Hidden
import TemplateStyler.Proofs.Directive.Spelling
import TemplateStyler.Proofs.Directive.Written

/-!
# Directives in their canonical spelling

No token reaches over a blank or a comma, so that the tokens of a text are those of its pieces, one
after the other. A text in its canonical spelling has the same pieces, and so the same tokens.

* `Token.splits_append_iff`: a stretch without blanks and commas is cut apart from the rest.
  `Token.splits_iff_pieces`: so the tokens of a text are those of its pieces.
* `Directive.normalize_keeps_meaning`: **the canonical spelling is canonical and keeps the
  meaning.**
* `Directive.goesOn`: whether something other than a comma comes behind the word of directives.
  `Queue.restored_isDirectiveLine_iff`: **only then is a restored directive recognised again.** The
  recogniser wants a blank behind that word, which the canonical spelling has not before a comma.
-/

namespace TemplateStyler

open Text

/-! ### Tokens piece by piece -/

namespace Token

open Directive

theorem not_isBreak_of_continuesName {c : Char} (h : continuesName c = true) :
    isBreak c = false := by
  refine isBreak_eq_false_iff.2 ⟨Bool.eq_false_iff.2 fun hblank => ?_, ?_⟩
  · rw [not_continuesName_of_isBlank hblank] at h
    cases h
  · rintro rfl
    cases h

theorem continuesName_of_isDigit {c : Char} (h : c.isDigit = true) : continuesName c = true := by
  simp [continuesName, Char.isAlphanum, h]

/-- A word lies within one piece. -/
theorem Spells.isPiece {t : Token} {word : Text} (h : Spells t word) : IsPiece word := by
  cases h with
  | comma => exact Or.inl rfl
  | letWord | inWord | dots | randomSign | plus | minus =>
    exact Or.inr ⟨by decide, not_isBreak_of_all (by decide)⟩
  | integer hne h =>
    exact Or.inr ⟨hne, fun c hc => not_isBreak_of_continuesName (continuesName_of_isDigit (h c hc))⟩
  | name hc hcs =>
    refine Or.inr ⟨List.cons_ne_nil _ _, List.forall_mem_cons.2 ⟨?_, fun c hc => ?_⟩⟩
    · exact not_isBreak_of_continuesName (continuesName_of_startsName hc)
    · exact not_isBreak_of_continuesName (hcs c hc)

theorem Spells.not_isBreak {t : Token} {c : Char} {cs : Text} (h : Spells t (c :: cs))
    (hc : isBreak c = false) : ∀ d ∈ c :: cs, isBreak d = false := by
  rcases h.isPiece with hcomma | ⟨-, hword⟩
  · obtain ⟨rfl, -⟩ := List.cons.inj hcomma
    cases hc
  · exact hword

section
variable {rest : Text} (hrest : rest.head?.all isBreak = true)
include hrest

/-- A part without blanks and commas ends before the first one. -/
theorem prefix_of_prefix_append {word p : Text} (hword : ∀ c ∈ word, isBreak c = false)
    (h : word <+: p ++ rest) : word <+: p := by
  rcases List.prefix_or_prefix_of_prefix h (List.prefix_append p rest) with hle | ⟨more, rfl⟩
  · exact hle
  · cases more with
    | nil => exact (List.append_nil p).symm ▸ List.prefix_refl p
    | cons c more =>
      obtain ⟨rest', rfl⟩ := (List.prefix_append_right_inj p).1 h
      have hc : isBreak c = true := hrest
      rw [hword c (by simp)] at hc
      cases hc

/-- What stands behind a blank or a comma does not matter to the longest word before it. -/
theorem longest_append_iff {t : Token} {word more : Text} (hword : ∀ c ∈ word, isBreak c = false) :
    Longest t word (more ++ rest) ↔ Longest t word more := by
  constructor
  · intro h
    refine ⟨h.spells, fun other longer hother hprefix => h.longest other longer hother ?_⟩
    rw [← List.append_assoc]
    exact hprefix.trans (List.prefix_append _ _)
  · intro h
    refine ⟨h.spells, fun other longer hother hprefix => h.longest other longer hother ?_⟩
    rw [← List.append_assoc] at hprefix
    refine prefix_of_prefix_append hrest ?_ hprefix
    obtain ⟨c, cs, rfl⟩ := List.exists_cons_of_ne_nil hother.ne_nil
    obtain ⟨d, ds, rfl⟩ := List.exists_cons_of_ne_nil h.spells.ne_nil
    obtain rfl : c = d := (List.cons_prefix_cons.1 hprefix).1
    exact hother.not_isBreak (hword c List.mem_cons_self)

/-- **A stretch without blanks and commas is cut apart from the rest.** -/
theorem splits_append_iff {p : Text} {ts : List Token} (hp : ∀ c ∈ p, isBreak c = false) :
    Splits (p ++ rest) ts ↔ ∃ us vs, Splits p us ∧ Splits rest vs ∧ ts = us ++ vs := by
  constructor
  · intro h
    generalize htext : p ++ rest = text at h
    -- the cut goes through the stretch word by word, and what is left of it is a stretch again
    induction h generalizing p with
    | nil =>
      obtain ⟨rfl, rfl⟩ := List.append_eq_nil_iff.1 htext
      exact ⟨[], [], .nil, .nil, rfl⟩
    | @blank c cs ts hc h ih =>
      cases p with
      | nil => exact ⟨[], ts, .nil, by simpa [← htext] using Splits.blank hc h, rfl⟩
      | cons d p =>
        obtain ⟨rfl, -⟩ := List.cons.inj htext
        have hd := isBreak_of_isBlank hc
        rw [hp d List.mem_cons_self] at hd
        cases hd
    | @token t word r ts hword h ih =>
      cases p with
      | nil => exact ⟨[], t :: ts, .nil, by simpa [← htext] using Splits.token hword h, rfl⟩
      | cons d p =>
        have hplain : ∀ c ∈ word, isBreak c = false := by
          obtain ⟨c, cs, rfl⟩ := List.exists_cons_of_ne_nil hword.spells.ne_nil
          obtain ⟨rfl, -⟩ := List.cons.inj htext
          exact hword.spells.not_isBreak (hp d List.mem_cons_self)
        obtain ⟨more, hmore⟩ := prefix_of_prefix_append hrest hplain ⟨r, htext.symm⟩
        rw [← hmore, List.append_assoc] at htext
        obtain rfl := List.append_cancel_left htext
        rw [← hmore] at hp ⊢
        obtain ⟨us, vs, hus, hvs, rfl⟩ := ih (fun c hc => hp c (List.mem_append_right _ hc)) rfl
        exact ⟨t :: us, vs, .token ((longest_append_iff hrest hplain).1 hword) hus, hvs, rfl⟩
  · rintro ⟨us, vs, hus, hvs, rfl⟩
    induction hus with
    | nil => exact hvs
    | blank hc h ih => exact .blank hc (ih fun c hc => hp c (List.mem_cons_of_mem _ hc))
    | @token t word more us hword h ih =>
      have hplain : ∀ c ∈ word, isBreak c = false := fun c hc => hp c (List.mem_append_left _ hc)
      rw [List.append_assoc]
      exact .token ((longest_append_iff hrest hplain).2 hword)
        (ih fun c hc => hp c (List.mem_append_right _ hc))

end

theorem splits_comma_iff {cs : Text} {ts : List Token} :
    Splits (',' :: cs) ts ↔ ∃ us, Splits cs us ∧ ts = .comma :: us := by
  have hcomma : ∀ {t : Token} {word : Text}, Spells t word → word <+: ',' :: cs →
      word = [','] := by
    intro t word h hprefix
    rcases h.isPiece with hword | ⟨hne, hword⟩
    · exact hword
    · obtain ⟨c, word, rfl⟩ := List.exists_cons_of_ne_nil hne
      obtain rfl := (List.cons_prefix_cons.1 hprefix).1
      exact absurd (hword ',' List.mem_cons_self) (by decide)
  rw [splits_cons_iff rfl]
  constructor
  · rintro ⟨t, word, rest, us, htext, hword, h, rfl⟩
    obtain rfl := hcomma hword.spells ⟨rest, htext.symm⟩
    obtain ⟨-, rfl⟩ := List.cons.inj htext
    exact ⟨us, h, by rw [hword.spells.unique .comma]⟩
  · rintro ⟨us, h, rfl⟩
    refine ⟨_, _, _, us, rfl, ⟨.comma, fun other longer hother hprefix => ?_⟩, h, rfl⟩
    rw [hcomma hother hprefix]
    exact Nat.le_refl 1

/-- **The tokens of a text are those of its pieces**, one piece after the other. -/
theorem splits_iff_pieces {text : Text} {ts : List Token} :
    Splits text ts ↔ ∃ tss, List.Forall₂ Splits (pieces text) tss ∧ ts = tss.flatten := by
  induction text using pieces_induction generalizing ts with
  | nil =>
    rw [splits_nil_iff]
    constructor
    · rintro rfl
      exact ⟨[], .nil, rfl⟩
    · rintro ⟨tss, ⟨⟩, rfl⟩
      rfl
  | blank c cs hc ih => rw [splits_blank_iff hc, pieces_blank hc, ih]
  | comma cs ih =>
    rw [splits_comma_iff, pieces_comma]
    constructor
    · rintro ⟨us, hus, rfl⟩
      obtain ⟨tss, htss, rfl⟩ := ih.1 hus
      exact ⟨[.comma] :: tss, .cons (splits_comma_iff.2 ⟨[], .nil, rfl⟩) htss, rfl⟩
    · rintro ⟨_, hpieces, rfl⟩
      obtain ⟨ts, tss, hts, htss, rfl⟩ := List.forall₂_cons_left_iff.1 hpieces
      obtain ⟨us, hus, rfl⟩ := splits_comma_iff.1 hts
      obtain rfl := splits_nil_iff.1 hus
      exact ⟨_, ih.2 ⟨_, htss, rfl⟩, rfl⟩
  | stretch p rest hne hp hrest ih =>
    rw [splits_append_iff hrest hp, pieces_append hne hp hrest]
    constructor
    · rintro ⟨us, vs, hus, hvs, rfl⟩
      obtain ⟨tss, htss, rfl⟩ := ih.1 hvs
      exact ⟨us :: tss, .cons hus htss, rfl⟩
    · rintro ⟨_, hpieces, rfl⟩
      obtain ⟨ts, tss, hts, htss, rfl⟩ := List.forall₂_cons_left_iff.1 hpieces
      exact ⟨_, _, hts, ih.2 ⟨_, htss, rfl⟩, rfl⟩

end Token

namespace Directive

/-! ### What is read -/

/-- What is read of a line depends on the pieces of its text alone. -/
theorem parse_congr {a b : Text}
    (h : pieces (trimEnd (a.dropWhile isBlank)) = pieces (trimEnd (b.dropWhile isBlank)))
    (d : Directive) : parse a = .ok d ↔ parse b = .ok d := by
  simp only [parse_eq_ok_iff_splits, Token.splits_iff_pieces, h]

theorem parse_blanks_append {a : Text} (ha : ∀ c ∈ a, isBlank c = true) (b : Text)
    (d : Directive) : parse (a ++ b) = .ok d ↔ parse b = .ok d :=
  parse_congr (by rw [List.dropWhile_append_of_pos ha]) d

theorem trim_dropWhile (line : Text) : trim (line.dropWhile isBlank) = trim line := by
  have hindent : ∀ c ∈ line.takeWhile isBlank, isSpace c = true := fun c hc =>
    isSpace_of_isBlank (List.mem_takeWhile_imp hc)
  calc trim (line.dropWhile isBlank) =
        trim (line.takeWhile isBlank ++ line.dropWhile isBlank ++ []) :=
        (trim_append hindent (List.forall_mem_nil _)).symm
    _ = trim line := by rw [List.append_nil, List.takeWhile_append_dropWhile]

/-- The first character of a directive line behind its blanks is no white space of any kind. -/
theorem trim_of_isDirectiveLine {line : Text} (h : isDirectiveLine line = true) :
    trim line = trimEnd (line.dropWhile isBlank) := by
  obtain ⟨c, rest, hline, -⟩ := isDirectiveLine_iff.1 h
  rw [← trim_dropWhile, trim, trimStart, dropWhile_eq_self]
  rw [hline]
  rfl

theorem parse_normalize_iff {line : Text} (h : isDirectiveLine line = true) (d : Directive) :
    parse (normalize line) = .ok d ↔ parse line = .ok d := by
  refine parse_congr ?_ d
  rw [dropWhile_eq_self (not_isBlank_head?_normalize line), ← trim_of_isDirectiveLine h,
    ← pieces_trim_normalize, trim, trimStart_normalize]

/-- **The canonical spelling is canonical and keeps the meaning.** To spell it anew changes
nothing, and it writes the same directive, or none if the line wrote none. -/
theorem normalize_keeps_meaning (text : Text) :
    normalize (normalize text) = normalize text ∧
    (∀ d, parse text = .ok d → parse (normalize text) = .ok d) ∧
    (isDirectiveLine text = true → ∀ defect, parse text = .error defect →
      ∃ defect', parse (normalize text) = .error defect') := by
  refine ⟨?_, fun d h => ?_, fun hline defect h => ?_⟩
  · rw [normalize_eq_spell (normalize text), pieces_trim_normalize, ← normalize_eq_spell]
  · exact (parse_normalize_iff (isDirectiveLine_of_parse h) d).2 h
  · cases hparse : parse (normalize text) with
    | error defect' => exact ⟨defect', rfl⟩
    | ok d =>
      rw [(parse_normalize_iff hline d).1 hparse] at h
      cases h

/-- Blanks of both kinds and a no-break space, and a line that ends with a comma. -/
theorem normalize_keeps_meaning_blanks :
    ∃ (line defective : Text) (d : Directive) (defect defect' : Defect),
      line = "\tlet a ,b\tin 1..2 ,  -3..+4 \u00a0".toList ∧
      normalize line = "let a, b in 1..2, -3..+4".toList ∧
      normalize (normalize line) = normalize line ∧
      parse line = .ok d ∧ parse (normalize line) = .ok d ∧
      defective = "let a in 1..2 ,".toList ∧ isDirectiveLine defective = true ∧
      parse defective = .error defect ∧ parse (normalize defective) = .error defect' := by
  obtain ⟨line, hline⟩ : ∃ line : Text, line = "\tlet a ,b\tin 1..2 ,  -3..+4 \u00a0".toList :=
    ⟨_, rfl⟩
  have hparse : parse line =
      .ok ⟨["a".toList, "b".toList], [⟨1, 2, false⟩, ⟨-3, 4, false⟩]⟩ := by
    rw [hline]
    exact Fault.eq_ok_of_toOption (by decide +kernel)
  have hdefective : isDirectiveLine "let a in 1..2 ,".toList = true := by decide
  have hdefect : parse "let a in 1..2 ,".toList = .error ⟨.unfinished, 15, 16⟩ := by decide +kernel
  obtain ⟨hagain, hkept, -⟩ := normalize_keeps_meaning line
  obtain ⟨defect', hdefect'⟩ := (normalize_keeps_meaning _).2.2 hdefective _ hdefect
  refine ⟨line, _, _, _, defect', hline, ?_, hagain, hparse, hkept _ hparse, rfl, hdefective,
    hdefect, hdefect'⟩
  rw [hline]
  decide

/-! ### What is recognised -/

/-- Whether something other than a comma comes behind the word of directives. -/
def goesOn (line : Text) : Bool := (((trim line).drop 3).dropWhile isBlank).head?.any (· ≠ ',')

/-- **The canonical spelling of a directive line is one** if and only if something other than a
comma comes behind the word of directives. The blank behind that word is lost before a comma and at
the end. -/
theorem isDirectiveLine_normalize {line : Text} (h : isDirectiveLine line = true) :
    isDirectiveLine (normalize line) = goesOn line := by
  obtain ⟨c, rest, hline, hc⟩ := isDirectiveLine_iff.1 h
  have hmore : trim line = "let".toList ++ trimEnd (c :: rest) := by
    have hlet : "let".toList.getLast?.any isSpace = false := by decide
    rw [trim_of_isDirectiveLine h, hline]
    exact dropEndWhile_append hlet _
  have hbreak : (trimEnd (c :: rest)).head?.all isBreak = true := by
    have hnot := head?_dropEndWhile isSpace (q := (!isBreak ·)) (a := c :: rest)
      (by simp [isBreak_of_isBlank hc])
    rw [trimEnd]
    cases hhead : (dropEndWhile isSpace (c :: rest)).head? with
    | none => rfl
    | some d => simpa [hhead] using hnot
  generalize trimEnd (c :: rest) = more at hmore hbreak
  -- the next piece decides both what is asked for and what stands before it
  have hgoes : goesOn line = (pieces more).head?.any (· ≠ [',']) := by
    rw [goesOn, hmore, ← pieces_dropWhile more, head?_pieces (head?_dropWhile _ _)]
    rfl
  have hlet : ∀ c ∈ "let".toList, isBreak c = false := not_isBreak_of_all (by decide)
  rw [normalize_eq_spell, hmore, pieces_append (by decide) hlet hbreak, spell, hgoes]
  cases hnext : (pieces more).head?.any (· ≠ [',']) with
  | true =>
    rw [gap, if_pos (Or.inr hnext)]
    rfl
  | false =>
    rw [gap, if_neg (not_or.2 ⟨by decide, Bool.eq_false_iff.1 hnext⟩)]
    cases hps : pieces more with
    | nil => rfl
    | cons p ps =>
      obtain rfl : p = [','] := by simpa [hps] using hnext
      rfl

theorem isSome_rewriteForChecker_iff {line : Text} (h : isDirectiveLine line = true) :
    (rewriteForChecker line).2.isSome = true ↔ ∀ d, parse line ≠ .ok d := by
  rw [rewriteForChecker, if_pos h]
  cases parse line with
  | ok d => simp
  | error defect => simp

end Directive

namespace Queue

open Directive

/-- A directive that waits has the canonical spelling of its line. -/
theorem normalize_directive_eq (line : Text) :
    Directive.normalize (directive line) = Directive.normalize line := by
  rw [normalize_directive, drop_indentation, Directive.normalize, trim_dropWhile,
    ← Directive.normalize]

/-- **A directive that was hidden and restored is recognised again** if and only if something other
than a comma came behind the word of directives. Then the checker reports it as malformed if and
only if it was malformed before, and it is hidden again. Otherwise it was malformed, and no more is
said. -/
theorem restored_isDirectiveLine_iff {line indent : Text} (sentinel : Text)
    (h : isDirectiveLine line = true) (hindent : ∀ c ∈ indent, isBlank c = true) :
    (isDirectiveLine (Directive.normalize line) = true ↔ goesOn line = true) ∧
    (isDirectiveLine (indent ++ Directive.normalize (directive line)) = true ↔
      goesOn line = true) ∧
    (goesOn line = true →
      (rewriteForChecker (indent ++ Directive.normalize (directive line))).2.isSome =
        (rewriteForChecker line).2.isSome ∧
      hide sentinel (indent ++ Directive.normalize (directive line)) = indent ++ sentinel) ∧
    (goesOn line = false →
      (rewriteForChecker line).2.isSome = true ∧
      rewriteForChecker (indent ++ Directive.normalize (directive line)) =
        (indent ++ Directive.normalize (directive line), none) ∧
      hide sentinel (indent ++ Directive.normalize (directive line)) =
        indent ++ Directive.normalize (directive line)) := by
  have hspelt := isDirectiveLine_normalize h
  have hrestored := isDirectiveLine_blanks_append hindent (Directive.normalize line)
  rw [hspelt] at hrestored
  rw [normalize_directive_eq, hspelt, hrestored]
  refine ⟨Iff.rfl, Iff.rfl, fun hgoes => ?_, fun hgoes => ?_⟩
  · rw [hgoes] at hrestored
    refine ⟨Bool.eq_iff_iff.2 ?_, ?_⟩
    · rw [isSome_rewriteForChecker_iff hrestored, isSome_rewriteForChecker_iff h]
      simp only [ne_eq, parse_blanks_append hindent, parse_normalize_iff h]
    · rw [hide_of_directive hrestored,
        indentation_blanks_append hindent (not_isBlank_head?_normalize line)]
  · rw [hgoes] at hspelt hrestored
    refine ⟨(isSome_rewriteForChecker_iff h).2 fun d hparse => ?_,
      rewriteForChecker_of_not_directive hrestored, hide_of_not_directive hrestored⟩
    have hkept := isDirectiveLine_of_parse ((parse_normalize_iff h d).2 hparse)
    rw [hspelt] at hkept
    cases hkept

/-- A directive without intervals is recognised again, one without names is not. -/
theorem restored_isDirectiveLine_iff_comma :
    ∃ goes lost indent : Text, goes = "  let a ,b".toList ∧ lost = "  let , a in 1..2".toList ∧
      indent = "\t".toList ∧ (∀ c ∈ indent, isBlank c = true) ∧
      isDirectiveLine goes = true ∧ isDirectiveLine lost = true ∧
      isDirectiveLine (indent ++ Directive.normalize (directive goes)) = true ∧
      (rewriteForChecker lost).2.isSome = true ∧
      rewriteForChecker (indent ++ Directive.normalize (directive lost)) =
        ("\tlet, a in 1..2".toList, none) := by
  have hblank : ∀ c ∈ "\t".toList, isBlank c = true := List.all_eq_true.1 (by decide)
  have hgoes : isDirectiveLine "  let a ,b".toList = true := by decide
  have hlost : isDirectiveLine "  let , a in 1..2".toList = true := by decide
  obtain ⟨-, hiff, -, -⟩ := restored_isDirectiveLine_iff usualSentinel.toList hgoes hblank
  obtain ⟨-, -, -, hlast⟩ := restored_isDirectiveLine_iff usualSentinel.toList hlost hblank
  obtain ⟨hdefect, hnone, -⟩ := hlast (by decide)
  refine ⟨_, _, _, rfl, rfl, rfl, hblank, hgoes, hlost, hiff.2 (by decide), hdefect, ?_⟩
  rw [hnone]
  decide

/-- Where a comma or nothing comes behind the word of directives, the canonical spelling has no
blank behind that word, and the defect of the line is reported no more. -/
theorem isDirectiveLine_normalize_differs :
    (isDirectiveLine "let , a in 1..2".toList = true ∧
      (rewriteForChecker "let , a in 1..2".toList).2.isSome = true ∧
      isDirectiveLine (Directive.normalize "let , a in 1..2".toList) = false ∧
      (rewriteForChecker (Directive.normalize "let , a in 1..2".toList)).2 = none) ∧
    (isDirectiveLine "let ".toList = true ∧ (rewriteForChecker "let ".toList).2.isSome = true ∧
      isDirectiveLine (Directive.normalize "let ".toList) = false ∧
      (rewriteForChecker (Directive.normalize "let ".toList)).2 = none) := by
  decide +kernel

end Queue

end TemplateStyler
