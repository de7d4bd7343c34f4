import TemplateStyler.Directive.Parse
import TemplateStyler.Proofs.Fault
import TemplateStyler.Proofs.Text.Ends

/-!
# Lines as a checker sees them

A line that the checker sees in place of a directive is made of the blanks before the directive and
of its names. The names are words of the directive, so that nothing in that line can end it.

* `Token.IsName`: a word that is no keyword. `isName_of_mem_scan`: the scanner makes no other names.
* `isName_of_parse`: nor does a directive have others.
* `newline_not_mem_rewriteForChecker`: **what the checker sees of a line is one line.**
* `rewriteForChecker_conceals`: **and it is no directive**, as an assignment starts with a name.
-/

namespace TemplateStyler

open Text

/-! ### Names -/

namespace Token

/-- A name of a directive: a word that is no keyword. -/
structure IsName (x : Text) : Prop where
  word : ∃ c cs, x = c :: cs ∧ startsName c = true ∧ ∀ d ∈ cs, continuesName d = true
  free : ofWord x = .name x

theorem continuesName_of_startsName {c : Char} (h : startsName c = true) :
    continuesName c = true := by
  simp only [startsName, continuesName, Char.isAlphanum, Bool.or_eq_true] at h ⊢
  exact h.imp_left Or.inl

theorem IsName.continuesName {x : Text} (h : IsName x) : ∀ c ∈ x, continuesName c = true := by
  obtain ⟨c, cs, rfl, hc, hcs⟩ := h.word
  exact List.forall_mem_cons.2 ⟨continuesName_of_startsName hc, hcs⟩

theorem not_continuesName_of_isBlank {c : Char} (h : isBlank c = true) :
    continuesName c = false := by
  rw [isBlank, Bool.or_eq_true, beq_iff_eq, beq_iff_eq] at h
  rcases h with rfl | rfl <;> decide

/-- A word ends before the first character that is no part of one. -/
theorem takeWhile_continuesName {x : Text} {e : Char} (hx : ∀ c ∈ x, continuesName c = true)
    (he : continuesName e = false) (rest : Text) :
    (x ++ e :: rest).takeWhile continuesName = x := by
  rw [List.takeWhile_append_of_pos hx, List.takeWhile_cons_of_neg (by simp [he]), List.append_nil]

/-- A name starts with a character that is no blank. -/
theorem IsName.head?_append {x : Text} (h : IsName x) (rest : Text) :
    (x ++ rest).head?.any isBlank = false := by
  obtain ⟨c, cs, rfl, hc, -⟩ := h.word
  refine Bool.eq_false_iff.2 fun hblank => ?_
  have hnot := not_continuesName_of_isBlank hblank
  rw [continuesName_of_startsName hc] at hnot
  cases hnot

theorem eq_of_ofWord_eq_name {word x : Text} (h : ofWord word = .name x) : x = word := by
  unfold ofWord at h
  split at h
  · cases h
  · split at h
    · cases h
    · exact (Token.name.inj h).symm

theorem isName_of_first {c : Char} {cs x : Text} {n : Nat} (h : first c cs = .ok (.name x, n)) :
    IsName x := by
  unfold first at h
  split at h
  · next hc =>
    obtain ⟨hword, -⟩ := Prod.mk.inj (Except.ok.inj h)
    obtain rfl := eq_of_ofWord_eq_name hword
    exact ⟨⟨c, _, rfl, hc, List.all_eq_true.1 List.all_takeWhile⟩, hword⟩
  · split at h
    · dsimp only at h
      split at h <;> simp at h
    · split at h <;> simp at h

theorem isName_of_mem_scan {column : Nat} {cs x : Text} {ts : List Placed} {t : Placed}
    (h : scan column cs = .ok ts) (ht : t ∈ ts) (hx : t.token = .name x) : IsName x := by
  fun_induction scan column cs generalizing ts with
  | case1 => cases h; exact absurd ht List.not_mem_nil
  | case2 column c cs hblank ih => exact ih h ht
  | case3 column c cs hblank token n hfirst ih =>
    cases hrest : scan (column + 1 + n) (cs.drop n) with
    | error => rw [hrest] at h; cases h
    | ok rest =>
      rw [hrest] at h
      cases h
      rcases List.mem_cons.1 ht with rfl | ht
      · obtain rfl : token = .name x := hx
        exact isName_of_first hfirst
      · exact ih hrest ht
  | case4 => cases h

end Token

namespace Directive

variable {last : Nat}

theorem subset_of_expect {token : Token} {ts rest : List Placed}
    (h : expect last token ts = .ok rest) : rest ⊆ ts := by
  cases ts with
  | nil => cases h
  | cons t ts =>
    rw [expect] at h
    split at h
    · cases h
      exact List.subset_cons_self _ _
    · cases h

/-- The names that are read are names among the tokens. -/
theorem exists_of_mem_nameList {ts rest : List Placed} {xs : List Text}
    (h : nameList last ts = .ok (xs, rest)) : ∀ x ∈ xs, ∃ t ∈ ts, t.token = .name x := by
  fun_induction nameList last ts generalizing xs rest with
  | case1 x _ _ _ _ ts ih =>
    cases hrest : nameList last ts with
    | error => rw [hrest] at h; cases h
    | ok p =>
      rw [hrest] at h
      cases h
      refine List.forall_mem_cons.2 ⟨⟨_, List.mem_cons_self, rfl⟩, fun y hy => ?_⟩
      obtain ⟨t, ht, hty⟩ := ih hrest y hy
      exact ⟨t, List.mem_cons_of_mem _ (List.mem_cons_of_mem _ ht), hty⟩
  | case2 x _ _ ts =>
    cases h
    exact List.forall_mem_singleton.2 ⟨_, List.mem_cons_self, rfl⟩
  | case3 => cases h

/-- The names of a directive are read right behind its first token. -/
theorem exists_nameList_of_ofTokens {ts : List Placed} {d : Directive}
    (h : ofTokens last ts = .ok d) :
    ∃ ts' rest, expect last .letWord ts = .ok ts' ∧ nameList last ts' = .ok (d.names, rest) := by
  obtain ⟨ts₁, hlet, h⟩ := Fault.bind_eq_ok_iff.1 h
  obtain ⟨⟨names, ts₂⟩, hnames, h⟩ := Fault.bind_eq_ok_iff.1 h
  obtain ⟨ts₃, -, h⟩ := Fault.bind_eq_ok_iff.1 h
  obtain ⟨⟨ranges, ts₄⟩, -, h⟩ := Fault.bind_eq_ok_iff.1 h
  have hd : d = ⟨names, ranges⟩ := by
    dsimp only at h
    split at h
    · exact (Except.ok.inj h).symm
    · cases h
  exact ⟨ts₁, ts₂, hlet, by rwa [hd]⟩

theorem exists_of_mem_ofTokens {ts : List Placed} {d : Directive} (h : ofTokens last ts = .ok d) :
    ∀ x ∈ d.names, ∃ t ∈ ts, t.token = .name x := by
  obtain ⟨ts', rest, hlet, hnames⟩ := exists_nameList_of_ofTokens h
  intro x hx
  obtain ⟨t, ht, htx⟩ := exists_of_mem_nameList hnames x hx
  exact ⟨t, subset_of_expect hlet ht, htx⟩

theorem isName_of_parse {line : Text} {d : Directive} (h : parse line = .ok d) :
    ∀ x ∈ d.names, Token.IsName x := by
  obtain ⟨ts, hscan, h⟩ := Fault.bind_eq_ok_iff.1 h
  intro x hx
  obtain ⟨t, ht, htx⟩ := exists_of_mem_ofTokens h x hx
  exact Token.isName_of_mem_scan hscan ht htx

theorem ne_nil_of_nameList {ts rest : List Placed} {xs : List Text}
    (h : nameList last ts = .ok (xs, rest)) : xs ≠ [] := by
  revert h
  fun_cases nameList last ts with
  | case1 =>
    intro h
    obtain ⟨⟨ys, rest⟩, -, ⟨⟩⟩ := Fault.bind_eq_ok_iff.1 h
    exact List.cons_ne_nil _ _
  | case2 =>
    rintro ⟨⟩
    exact List.cons_ne_nil _ _
  | case3 => rintro ⟨⟩

theorem names_ne_nil_of_parse {line : Text} {d : Directive} (h : parse line = .ok d) :
    d.names ≠ [] := by
  obtain ⟨ts, -, h⟩ := Fault.bind_eq_ok_iff.1 h
  obtain ⟨_, _, -, hnames⟩ := exists_nameList_of_ofTokens h
  exact ne_nil_of_nameList hnames

/-! ### The line that is shown -/

theorem mem_commaSeparated {items : List Text} {c : Char} (h : c ∈ commaSeparated items) :
    c = ',' ∨ c = ' ' ∨ ∃ x ∈ items, c ∈ x := by
  induction items with
  | nil => exact absurd h List.not_mem_nil
  | cons x items ih =>
    cases items with
    | nil => exact Or.inr (Or.inr ⟨x, List.mem_cons_self, by simpa [commaSeparated] using h⟩)
    | cons y items =>
      rw [commaSeparated, List.intercalate_cons_cons, List.mem_append, List.mem_append] at h
      rcases h with (hx | hcomma) | hrest
      · exact Or.inr (Or.inr ⟨x, List.mem_cons_self, hx⟩)
      · rcases List.mem_cons.1 hcomma with hc | hc
        · exact Or.inl hc
        · exact Or.inr (Or.inl (List.mem_singleton.1 hc))
      · exact (ih hrest).imp_right (Or.imp_right fun ⟨z, hz, hc⟩ =>
          ⟨z, List.mem_cons_of_mem _ hz, hc⟩)

theorem newline_not_mem_commaSeparated {items : List Text} (h : ∀ x ∈ items, '\n' ∉ x) :
    '\n' ∉ commaSeparated items := by
  intro hmem
  obtain hc | hc | ⟨x, hx, hc⟩ := mem_commaSeparated hmem
  · cases hc
  · cases hc
  · exact h x hx hc

theorem newline_not_mem_assignment {line : Text} {d : Directive} (h : parse line = .ok d) :
    '\n' ∉ d.assignment := by
  have hnames : '\n' ∉ commaSeparated d.names := newline_not_mem_commaSeparated fun x hx hmem =>
    absurd ((isName_of_parse h x hx).continuesName _ hmem) (by decide)
  have hzeros : '\n' ∉ commaSeparated (d.names.map fun _ => ['0']) :=
    newline_not_mem_commaSeparated fun x hx => by
      obtain ⟨_, -, rfl⟩ := List.mem_map.1 hx
      decide
  rw [assignment, List.mem_append, List.mem_append, not_or, not_or]
  exact ⟨⟨hnames, by decide⟩, hzeros⟩

/-- **What the checker sees of a line is one line.** -/
theorem newline_not_mem_rewriteForChecker {line : Text} (h : '\n' ∉ line) :
    '\n' ∉ (rewriteForChecker line).1 := by
  have hindent : '\n' ∉ indentation line := fun hmem => h (List.takeWhile_subset _ hmem)
  unfold rewriteForChecker
  split
  · cases hparse : parse line with
    | ok d => exact List.mem_append.not.2 (not_or.2 ⟨hindent, newline_not_mem_assignment hparse⟩)
    | error => exact List.mem_append.not.2 (not_or.2 ⟨hindent, by decide⟩)
  · exact h

/-! ### No directive is shown -/

theorem isDirectiveLine_iff {line : Text} :
    isDirectiveLine line = true ↔
      ∃ c rest, line.dropWhile isBlank = 'l' :: 'e' :: 't' :: c :: rest ∧ isBlank c = true := by
  unfold isDirectiveLine
  split
  · next c rest hline => simp [hline]
  · next hother =>
    refine iff_of_false Bool.false_ne_true ?_
    rintro ⟨c, rest, hline, -⟩
    exact hother c rest hline

theorem isBlank_of_mem_indentation {line : Text} {c : Char} (h : c ∈ indentation line) :
    isBlank c = true := List.mem_takeWhile_imp h

section
variable {a : Text} (ha : ∀ c ∈ a, isBlank c = true)
include ha

/-- Blanks before a line do not matter to the recogniser. -/
theorem isDirectiveLine_blanks_append (b : Text) :
    isDirectiveLine (a ++ b) = isDirectiveLine b := by
  rw [isDirectiveLine, List.dropWhile_append_of_pos ha, ← isDirectiveLine]

theorem indentation_blanks_append {b : Text} (hb : b.head?.any isBlank = false) :
    indentation (a ++ b) = a := by
  have hnone : b.takeWhile isBlank = [] := by
    cases b with
    | nil => rfl
    | cons c b => exact List.takeWhile_cons_of_neg (by simpa using hb)
  rw [indentation, List.takeWhile_append_of_pos ha, hnone, List.append_nil]

end

theorem rewriteForChecker_of_not_directive {line : Text} (h : isDirectiveLine line = false) :
    rewriteForChecker line = (line, none) := if_neg (by simp [h])

/-- A line that starts with a name holds no directive, as the word of directives is no name. -/
theorem isDirectiveLine_name_append {x rest : Text} {e : Char} (hx : Token.IsName x)
    (he : Token.continuesName e = false) : isDirectiveLine (x ++ e :: rest) = false := by
  refine Bool.eq_false_iff.2 fun h => ?_
  obtain ⟨c, rest', hline, hc⟩ := isDirectiveLine_iff.1 h
  rw [dropWhile_eq_self (hx.head?_append _)] at hline
  have hlet : ∀ c ∈ "let".toList, Token.continuesName c = true :=
    List.all_eq_true.1 (by decide)
  -- both texts start with a word, and what ends it is no part of a name
  have hword : x = "let".toList := calc
    x = (x ++ e :: rest).takeWhile Token.continuesName :=
      (Token.takeWhile_continuesName hx.continuesName he rest).symm
    _ = ("let".toList ++ c :: rest').takeWhile Token.continuesName := by
      rw [hline]
      rfl
    _ = "let".toList :=
      Token.takeWhile_continuesName hlet (Token.not_continuesName_of_isBlank hc) rest'
  have hfree := hx.free
  rw [hword] at hfree
  cases hfree

theorem assignment_eq (d : Directive) :
    d.assignment = commaSeparated d.names ++ " = ".toList ++
      commaSeparated (List.replicate d.names.length ['0']) := by
  rw [assignment, List.map_const']

/-- An assignment starts with a name and what ends it. -/
theorem exists_of_assignment {d : Directive} (h : d.names ≠ []) :
    ∃ x ∈ d.names, ∃ e rest, d.assignment = x ++ e :: rest ∧ Token.continuesName e = false := by
  obtain ⟨x, xs, hnames⟩ := List.exists_cons_of_ne_nil h
  rw [assignment, hnames]
  generalize commaSeparated ((x :: xs).map fun _ => ['0']) = zeros
  refine ⟨x, List.mem_cons_self, ?_⟩
  cases xs with
  | nil => exact ⟨' ', '=' :: ' ' :: zeros, by simp [commaSeparated], by decide⟩
  | cons y ys =>
    refine ⟨',', ' ' :: (commaSeparated (y :: ys) ++ (" = ".toList ++ zeros)), ?_, by decide⟩
    rw [commaSeparated, List.intercalate_cons_cons, commaSeparated]
    simp only [List.append_assoc, List.cons_append, List.nil_append]

/-- What stands in place of a directive, behind its indentation, starts with a character that is no
blank and is no directive. -/
theorem exists_of_rewriteForChecker {line : Text} (h : isDirectiveLine line = true) :
    ∃ b, (rewriteForChecker line).1 = indentation line ++ b ∧ b.head?.any isBlank = false ∧
      isDirectiveLine b = false := by
  rw [rewriteForChecker, if_pos h]
  cases hparse : parse line with
  | error defect => exact ⟨_, rfl, by decide, by decide⟩
  | ok d =>
    obtain ⟨x, hx, e, rest, hassignment, he⟩ := exists_of_assignment (names_ne_nil_of_parse hparse)
    have hname := isName_of_parse hparse x hx
    refine ⟨_, rfl, ?_, ?_⟩
    · rw [hassignment]
      exact hname.head?_append _
    · rw [hassignment]
      exact isDirectiveLine_name_append hname he

/-- **The checker never sees a directive.** What it sees of a line is one line with the same
indentation: the line itself, an assignment of zero to each name of the directive, or a statement
that does nothing, with the defect. It would be shown to the checker as it is. -/
theorem rewriteForChecker_conceals {line r : Text} {e : Option Defect} (hline : '\n' ∉ line)
    (hr : rewriteForChecker line = (r, e)) :
    '\n' ∉ r ∧ isDirectiveLine r = false ∧ indentation r = indentation line ∧
    (isDirectiveLine line = false → r = line ∧ e = none) ∧
    (∀ d, isDirectiveLine line = true → parse line = .ok d →
      d.names ≠ [] ∧ e = none ∧
      r = indentation line ++ (commaSeparated d.names ++ " = ".toList ++
        commaSeparated (List.replicate d.names.length ['0']))) ∧
    (∀ defect, isDirectiveLine line = true → parse line = .error defect →
      r = indentation line ++ "pass".toList ∧ e = some defect) ∧
    rewriteForChecker r = (r, none) := by
  obtain rfl : (rewriteForChecker line).1 = r := congrArg Prod.fst hr
  obtain rfl : (rewriteForChecker line).2 = e := congrArg Prod.snd hr
  have hshown : isDirectiveLine (rewriteForChecker line).1 = false ∧
      indentation (rewriteForChecker line).1 = indentation line := by
    cases h : isDirectiveLine line with
    | false =>
      rw [rewriteForChecker_of_not_directive h]
      exact ⟨h, rfl⟩
    | true =>
      have hblank : ∀ c ∈ indentation line, isBlank c = true := fun _ => isBlank_of_mem_indentation
      obtain ⟨b, hb, hfirst, hdirective⟩ := exists_of_rewriteForChecker h
      rw [hb]
      exact ⟨(isDirectiveLine_blanks_append hblank b).trans hdirective,
        indentation_blanks_append hblank hfirst⟩
  refine ⟨newline_not_mem_rewriteForChecker hline, hshown.1, hshown.2, fun h => ?_,
    fun d h hparse => ?_, fun defect h hparse => ?_, rewriteForChecker_of_not_directive hshown.1⟩
  · rw [rewriteForChecker_of_not_directive h]
    exact ⟨rfl, rfl⟩
  · refine ⟨names_ne_nil_of_parse hparse, ?_⟩
    rw [← assignment_eq, rewriteForChecker, if_pos h, hparse]
    exact ⟨rfl, rfl⟩
  · rw [rewriteForChecker, if_pos h, hparse]
    exact ⟨rfl, rfl⟩

/-- Names that start with the word of directives, and a directive without intervals. -/
theorem rewriteForChecker_conceals_lets :
    ∃ line r defective pass : Text, ∃ defect : Defect,
      line = "\tlet lets ,let_ in 1..2".toList ∧ r = "\tlets, let_ = 0, 0".toList ∧
      '\n' ∉ line ∧ rewriteForChecker line = (r, none) ∧
      isDirectiveLine r = false ∧ rewriteForChecker r = (r, none) ∧
      defective = "  let a in".toList ∧ pass = "  pass".toList ∧
      '\n' ∉ defective ∧ rewriteForChecker defective = (pass, some defect) ∧
      isDirectiveLine pass = false ∧ rewriteForChecker pass = (pass, none) := by
  have hline : rewriteForChecker "\tlet lets ,let_ in 1..2".toList =
      ("\tlets, let_ = 0, 0".toList, none) := by decide +kernel
  have hdefective : rewriteForChecker "  let a in".toList =
      ("  pass".toList, some ⟨.unfinished, 10, 11⟩) := by decide +kernel
  obtain ⟨-, hnone, -, -, -, -, hagain⟩ := rewriteForChecker_conceals (by decide) hline
  obtain ⟨-, hnone', -, -, -, -, hagain'⟩ := rewriteForChecker_conceals (by decide) hdefective
  exact ⟨_, _, _, _, _, rfl, rfl, by decide, hline, hnone, hagain, rfl, rfl, by decide, hdefective,
    hnone', hagain'⟩

end Directive

end TemplateStyler
