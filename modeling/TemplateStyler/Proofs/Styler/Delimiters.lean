import Mathlib.Algebra.Ring.Parity
import TemplateStyler.Block.Basic
import TemplateStyler.Proofs.Lexeme.LineStart
import TemplateStyler.Proofs.Session.Reachable
import TemplateStyler.Proofs.State.Causes
import TemplateStyler.Proofs.Styler.Quoted
import TemplateStyler.Proofs.Text.Lines

/-!
# Delimiter lines as the lexer sees them

Two readers look for the lines between which scripts stand. The extraction of blocks wants four dots
or more with nothing but white space around them. The lexer wants four dots at the start of a line,
not even behind a blank, and does not look at the rest of the line. In a text of letters, blanks,
dots and newlines nothing else leads into a script or out of it, so that both readers count lines.

* `Registry.phase_after`: the lexemes that lead into a script or out of it are runs of dots, and the
  mode behind several lexemes depends on the number of such runs.
* `Grammar.countP_scan_lines`: the scanner makes such a run of the start of a line, and of nothing
  else.
* `script_iff_odd`: **the lexer is in a script behind an odd number of lines that start with four
  dots,** and so agrees with the extraction of blocks if and only if the number of lines that only
  one of the two takes for delimiter lines is even.
* `readsApart_of_one_line`: one such line parts them.
-/

namespace TemplateStyler

open Text Lexeme Shape

/-- A character that a text without marks but for dots may hold. -/
def isUnmarked (c : Char) : Bool := c.isAlpha || isBlank c || c == '.' || c == '\n'

/-- A text of letters, blanks, dots and newlines. -/
def Unmarked (text : Text) : Prop := ∀ c ∈ text, isUnmarked c = true

instance (text : Text) : Decidable (Unmarked text) :=
  List.decidableBAll (fun c => isUnmarked c = true) text

/-- Whether a line starts with as many dots as a delimiter line has. -/
def startsWithDots (line : Text) : Bool := Block.fewestDots ≤ run (· == '.') line

/-- Whether a lexeme is a run of as many dots as a delimiter line has. -/
def isDotRun (lexeme : Text) : Bool := isRunOf '.' Block.fewestDots lexeme

theorem Unmarked.of_append {a b : Text} (h : Unmarked (a ++ b)) : Unmarked a ∧ Unmarked b :=
  List.forall_mem_append.1 h

theorem Unmarked.not_mem {text : Text} (h : Unmarked text) {c : Char} (hc : isUnmarked c = false) :
    c ∉ text := fun hmem => by simp [h c hmem] at hc

/-! ### The mode behind lexemes -/

/-- The lexer is in the markup or in a script, and not in a comment of the markup. -/
structure State.Quiet (s : State) : Prop where
  mode : s.mode = .markup ∨ s.mode = .script
  style : s.style ≠ .languageComment

/-- A transition that stays in a mode and starts no comment of the markup. -/
structure Transition.Keeps (t : Transition) (mode : Mode) : Prop where
  mode : t.mode = mode
  style : t.style ≠ .languageComment

theorem Transition.Keeps.ite {c : Prop} [Decidable c] {t u : Transition} {mode : Mode}
    (ht : c → t.Keeps mode) (hu : ¬ c → u.Keeps mode) : (if c then t else u).Keeps mode := by
  split
  · next hc => exact ht hc
  · next hc => exact hu hc

/-- One in a script and zero elsewhere. -/
def State.phase (s : State) : Nat := if s.mode = .script then 1 else 0

theorem State.phase_eq_one_iff {s : State} : s.phase = 1 ↔ s.mode = .script := by
  rw [State.phase]
  split <;> simp_all

namespace Registry

variable (r : Registry) {lexeme : Text}

/-- In a script a lexeme without marks opens no string. -/
theorem scriptTransition_unmarked (h : Unmarked lexeme) (mode : Mode) :
    (r.scriptTransition mode lexeme).Keeps mode := by
  have hquote : Style.ofQuote? lexeme = none := by
    unfold Style.ofQuote?
    split_ifs with h1 h2 h3 h4
    · exact absurd (by rw [h1]; decide) (h.not_mem (c := '\'') rfl)
    · exact absurd (by rw [h2]; decide) (h.not_mem (c := '"') rfl)
    · exact absurd (by rw [h3]; decide) (h.not_mem (c := '\'') rfl)
    · exact absurd (by rw [h4]; decide) (h.not_mem (c := '"') rfl)
    · rfl
  unfold scriptTransition
  rw [hquote]
  iterate 4 refine .ite (fun _ => ⟨rfl, Style.noConfusion⟩) fun _ => ?_
  exact ⟨rfl, Style.noConfusion⟩

/-- In the markup a lexeme without marks opens nothing. -/
theorem markupTransition_unmarked (h : Unmarked lexeme) :
    (r.markupTransition lexeme).Keeps .markup := by
  unfold markupTransition
  split
  · exact absurd List.mem_cons_self (h.not_mem (c := '#') rfl)
  · iterate 5 refine .ite (fun _ => ⟨rfl, Style.noConfusion⟩) fun _ => ?_
    refine .ite (fun hbrace => ?_) fun _ => ?_
    · exact absurd (by rw [hbrace]; decide) (h.not_mem (c := '?') rfl)
    refine .ite (fun hpercent => ?_) fun _ => ?_
    · exact absurd (by rw [hpercent]; decide) (h.not_mem (c := '%') rfl)
    refine .ite (fun _ => ⟨rfl, Style.noConfusion⟩) fun _ => ?_
    refine .ite (fun hequals => ?_) fun _ => ?_
    · exact absurd (mem_of_isRunOf (by decide) hequals) (h.not_mem (c := '=') rfl)
    refine .ite (fun hangle => ?_) fun _ => ⟨rfl, Style.noConfusion⟩
    exact absurd (mem_of_isRunOf (by decide) hangle) (h.not_mem (c := '<') rfl)

/-- **A lexeme without marks leads into a script or out of it if it is a run of dots**, and leaves
the mode as it is otherwise. -/
theorem phase_next {s : State} (hs : s.Quiet) (h : Unmarked lexeme) :
    (r.next lexeme s).Quiet ∧
      (r.next lexeme s).phase = (s.phase + if isDotRun lexeme then 1 else 0) % 2 := by
  have htransition : r.transition lexeme s = r.openTransition s.mode lexeme :=
    r.transition_open hs.style (hs.mode.imp_right Or.inl)
  by_cases hdots : isDotRun lexeme = true
  · have hopen : r.openTransition s.mode lexeme =
        ⟨.blockDelimiter, if s.mode = .script then .markup else .script⟩ := if_pos hdots
    rw [if_pos hdots, next, htransition, hopen]
    rcases hs.mode with hmode | hmode
    · simp only [State.phase, hmode]
      exact ⟨⟨Or.inr rfl, Style.noConfusion⟩, rfl⟩
    · simp only [State.phase, hmode]
      exact ⟨⟨Or.inl rfl, Style.noConfusion⟩, rfl⟩
  · have hsame : (r.openTransition s.mode lexeme).Keeps s.mode := by
      unfold openTransition
      rw [if_neg (show ¬ isRunOf '.' 4 lexeme = true from hdots)]
      split_ifs with hpython hend hbrace hscript
      · exact absurd (by rw [hpython]; decide) (h.not_mem (c := '#') rfl)
      · refine absurd ?_ (h.not_mem (c := '#') rfl)
        rcases hend.2 with hend | hend <;> rw [hend] <;> decide
      · exact absurd (by rw [hbrace.2]; decide) (h.not_mem (c := '\x7d') rfl)
      · exact r.scriptTransition_unmarked h s.mode
      · rw [hs.mode.resolve_right fun hmode => hscript (Or.inl hmode)]
        exact r.markupTransition_unmarked h
    rw [if_neg hdots, next, htransition]
    refine ⟨⟨by rw [hsame.mode]; exact hs.mode, hsame.style⟩, ?_⟩
    simp only [State.phase, hsame.mode]
    split <;> rfl

/-- **The mode behind lexemes without marks** depends on the number of runs of dots among them. -/
theorem phase_after {s : State} (hs : s.Quiet) {ls : List Lexeme}
    (h : ∀ l ∈ ls, Unmarked l.text) :
    (r.after s ls).phase = (s.phase + ls.countP fun l => isDotRun l.text) % 2 := by
  induction ls generalizing s with
  | nil =>
    rw [after_nil, List.countP_nil, State.phase]
    split <;> rfl
  | cons l ls ih =>
    obtain ⟨hl, hls⟩ := List.forall_mem_cons.1 h
    obtain ⟨hquiet, hphase⟩ := r.phase_next hs hl
    rw [after_cons, ih hquiet hls, hphase, List.countP_cons]
    omega

end Registry

/-! ### The runs of dots that are scanned -/

namespace Grammar

open Registry

theorem not_isDigit_of_isUnmarked {c : Char} (h : isUnmarked c = true) : c.isDigit = false := by
  simp only [isUnmarked, isBlank, Bool.or_eq_true, beq_iff_eq] at h
  rcases h with ((hletter | hblank) | rfl) | rfl
  · exact not_isDigit_of_isAlpha hletter
  · rcases hblank with rfl | rfl <;> rfl
  · rfl
  · rfl

theorem head?_any_isDigit {cs : Text} (h : Unmarked cs) : cs.head?.any Char.isDigit = false := by
  cases cs with
  | nil => rfl
  | cons c cs => exact not_isDigit_of_isUnmarked (h c List.mem_cons_self)

/-- A lexeme that is not longer than one character is no run of dots. -/
theorem isDotRun_of_length_le {lexeme : Text} (h : lexeme.length ≤ 1) :
    isDotRun lexeme = false := by
  rw [isDotRun, isRunOf, decide_eq_false (by rw [Block.fewestDots]; omega), Bool.false_and]

/-- A lexeme that starts with something else than a dot is none either. -/
theorem isDotRun_cons_of_ne {c : Char} (hc : c ≠ '.') (lexeme : Text) :
    isDotRun (c :: lexeme) = false := by
  rw [isDotRun, isRunOf_cons_of_ne hc]

/-- In the middle of a line a dot is scanned alone. -/
theorem extent_dot_inside {cs : Text} (h : Unmarked cs) :
    stock.grammar.extent false ('.' :: cs) = 1 := by
  rw [extent, findSome?_solitary stock.grammar (by decide) (head?_any_isDigit h)]
  rfl

/-- At the start of a line all dots are scanned at once, if they are as many as a delimiter line
has. -/
theorem extent_dot_first {cs : Text} (h : Unmarked cs) :
    stock.grammar.extent true ('.' :: cs) =
      if startsWithDots ('.' :: cs) then run (· == '.') ('.' :: cs) else 1 := by
  split_ifs with hstart
  · exact stock.grammar.extent_dots (of_decide_eq_true hstart)
  · have hdots : Rule.extent? stock.grammar true ('.' :: cs) .dots = none := by
      simp only [Rule.extent?, if_true, atLeast]
      exact if_neg fun hle => hstart (decide_eq_true hle)
    have hkey := extent?_headerKey_of_head (c := '.') (by decide) (by decide +kernel) cs
    refine extent_of_rules [.dots, .headerKey, .number, .other] (by decide) ?_ (Nat.le_refl 1)
    rw [List.findSome?_cons, hdots, List.findSome?_cons, hkey, List.findSome?_cons,
      extent?_number_dot stock.grammar true (head?_any_isDigit h)]
    rfl

/-- **The next lexeme is a run of dots** if a line starts there with dots. -/
theorem isDotRun_take_extent {cs : Text} (h : Unmarked cs) (lineStart : Bool) :
    isDotRun (cs.take (stock.grammar.extent lineStart cs)) =
      (lineStart && startsWithDots cs) := by
  have hone : ∀ cs : Text, isDotRun (cs.take 1) = false := fun cs =>
    isDotRun_of_length_le (by rw [List.length_take]; exact Nat.min_le_left _ _)
  cases cs with
  | nil =>
    rw [List.take_nil]
    cases lineStart <;> rfl
  | cons c cs =>
    by_cases hc : c = '.'
    · subst hc
      have hcs := (Unmarked.of_append (a := ['.']) h).2
      cases lineStart with
      | false => rw [extent_dot_inside hcs, hone, Bool.false_and]
      | true =>
        rw [extent_dot_first hcs, Bool.true_and]
        split_ifs with hstart
        · have htake : ('.' :: cs).take (run (· == '.') ('.' :: cs)) =
              ('.' :: cs).takeWhile (· == '.') :=
            (List.prefix_iff_eq_take.1 (List.takeWhile_prefix _)).symm
          rw [htake, isDotRun, isRunOf, List.all_takeWhile, Bool.and_true, hstart]
          exact hstart
        · rw [hone, Bool.eq_false_iff.2 hstart]
    · obtain ⟨n, hn⟩ : ∃ n, stock.grammar.extent lineStart (c :: cs) = n + 1 :=
        ⟨_, (Nat.sub_add_cancel (stock.grammar.one_le_extent lineStart (c :: cs))).symm⟩
      have hrun : startsWithDots (c :: cs) = false := by
        simp [startsWithDots, run, hc, Block.fewestDots]
      rw [hn, List.take_succ_cons, isDotRun_cons_of_ne hc, hrun, Bool.and_false]

/-- What a lexeme leaves of a line has no newline before its end, and is nothing where the lexeme
has the newline. -/
theorem rest_of_line {cs : Text} (hline : '\n' ∉ cs.dropLast) (n : Nat) :
    '\n' ∉ (cs.drop n).dropLast ∧ ((cs.take n).getLast? = some '\n' → cs.drop n = []) := by
  by_cases hnil : cs.drop n = []
  · exact ⟨by simp [hnil], fun _ => hnil⟩
  · rw [← List.take_append_drop n cs, List.dropLast_append_of_ne_nil hnil, List.mem_append,
      not_or] at hline
    exact ⟨hline.2, fun hlast => absurd (List.mem_of_getLast? hlast) hline.1⟩

/-- Where no line starts there is no run of dots. -/
theorem isDotRun_of_mem_scan (pos : Nat) {lineStart : Bool} {cs : Text} (h : Unmarked cs)
    (hline : '\n' ∉ cs.dropLast) (hstart : lineStart = true → cs = []) :
    ∀ l ∈ stock.grammar.scan pos lineStart cs, isDotRun l.text = false := by
  -- A lexeme leaves either nothing or a part of the same line, where no line starts again.
  fun_induction scan stock.grammar pos lineStart cs with
  | case1 => simp
  | case2 pos lineStart c cs n lexeme ih =>
    obtain ⟨hrest, hends⟩ := rest_of_line hline n
    have hfalse : lineStart = false := Bool.eq_false_iff.2 fun htrue => by simpa using hstart htrue
    have hfirst : isDotRun lexeme.text = false := by
      rw [isDotRun_take_extent h lineStart, hfalse, Bool.false_and]
    exact List.forall_mem_cons.2 ⟨hfirst, ih (fun d hd => h d (List.mem_of_mem_drop hd)) hrest
      fun hlast => hends (beq_iff_eq.1 hlast)⟩

/-- The only run of dots of a line is its start. -/
theorem countP_scan_line {l : Text} (h : Unmarked l) (hline : IsLine l) (pos : Nat) :
    ((stock.grammar.scan pos true l).countP fun l => isDotRun l.text) =
      if startsWithDots l then 1 else 0 := by
  obtain ⟨c, cs, rfl⟩ := List.exists_cons_of_ne_nil hline.1
  obtain ⟨hrest, hends⟩ := rest_of_line hline.2 (stock.grammar.extent true (c :: cs))
  have hnone := isDotRun_of_mem_scan
    (⟨pos, (c :: cs).take (stock.grammar.extent true (c :: cs))⟩ : Lexeme).stop
    (fun d hd => h d (List.mem_of_mem_drop hd)) hrest fun hlast => hends (beq_iff_eq.1 hlast)
  rw [scan, List.countP_cons, List.countP_eq_zero.2 fun l hl => by simp [hnone l hl], Nat.zero_add]
  simp only [isDotRun_take_extent h true, Bool.true_and]

/-- **The runs of dots that are scanned** are the starts of lines. -/
theorem countP_scan_lines (ls : List Text) (h : Unmarked ls.flatten)
    (hls : ∀ l ∈ ls, IsLine l ∧ WholeLines l) (pos : Nat) :
    ((stock.grammar.scan pos true ls.flatten).countP fun l => isDotRun l.text) =
      ls.countP startsWithDots := by
  induction ls generalizing pos with
  | nil => simp [scan]
  | cons l ls ih =>
    obtain ⟨⟨hline, hwhole⟩, hls⟩ := List.forall_mem_cons.1 hls
    rw [List.flatten_cons] at h
    obtain ⟨hl, hrest⟩ := h.of_append
    rw [List.flatten_cons, scan_append_of_start stock_onOneLine hwhole, List.countP_append,
      countP_scan_line hl hline, ih hrest hls, List.countP_cons, Nat.add_comm]

end Grammar

/-! ### Lines up to a position -/

/-- The lines among several that end at or before a position, which counts from where they start. -/
def endedBy : Nat → List Text → List Text
  | _, [] => []
  | pos, l :: ls => if byteSize l ≤ pos then l :: endedBy (pos - byteSize l) ls else []

theorem endedBy_append {x y : List Text} (hy : ∀ l ∈ y, l ≠ []) :
    endedBy (byteSize x.flatten) (x ++ y) = x := by
  induction x with
  | nil =>
    cases y with
    | nil => rfl
    | cons l y =>
      rw [List.nil_append, endedBy,
        if_neg (by simpa using byteSize_eq_zero.not.2 (hy l List.mem_cons_self))]
  | cons l x ih =>
    rw [List.cons_append, endedBy, List.flatten_cons, byteSize_append,
      if_pos (Nat.le_add_right _ _), Nat.add_sub_cancel_left, ih]

/-- Tests that differ on an even number of items hold of equally many, up to an even number. -/
theorem countP_bne {α : Type} (p q : α → Bool) (xs : List α) :
    (xs.countP fun x => p x != q x) % 2 = (xs.countP p + xs.countP q) % 2 := by
  induction xs with
  | nil => rfl
  | cons x xs ih =>
    simp only [List.countP_cons]
    cases p x <;> cases q x <;> simp <;> omega

theorem Unmarked.of_mem_scan {text : Text} (h : Unmarked text) (g : Grammar) (pos : Nat)
    (lineStart : Bool) : ∀ l ∈ g.scan pos lineStart text, Unmarked l.text := by
  intro l hl c hc
  refine h c ?_
  rw [← g.flatten_scan pos lineStart text]
  exact List.mem_flatten_of_mem (List.mem_map_of_mem hl) hc

/-- The exact state at a line start says whether the number of lines before it that start with four
dots is even. -/
theorem exists_walk_phase {text : Text} (h : Unmarked text) {pos : Nat}
    (hstart : IsLineStart text pos) :
    ∃ s, Registry.stock.walk .initial
        ((Registry.stock.grammar.scanText text).filter fun l => l.stop ≤ pos) = .ok s ∧
      s.phase = (endedBy pos (lines text)).countP startsWithDots % 2 := by
  obtain ⟨a, b, rfl, rfl, ha⟩ := isLineStart_iff.1 hstart
  obtain ⟨hunmarked, -⟩ := h.of_append
  have hended : endedBy (byteSize a) (lines (a ++ b)) = lines a := by
    have happend := endedBy_append (x := lines a) (y := lines b) fun l hl =>
      (isLine_of_mem (lined_lines b) hl).1
    rwa [flatten_lines, ← lines_append ha] at happend
  have hcount := Grammar.countP_scan_lines (lines a) (by rwa [flatten_lines]) (fun l hl =>
    ⟨isLine_of_mem (lined_lines a) hl,
      (lined_lines a).wholeLines (by rwa [flatten_lines]) l hl⟩) 0
  rw [flatten_lines] at hcount
  have hphase := Registry.stock.phase_after (s := .initial) ⟨Or.inl rfl, Style.noConfusion⟩
    (hunmarked.of_mem_scan Registry.stock.grammar 0 true)
  have hinitial : State.initial.phase = 0 := rfl
  rw [hcount, hinitial, Nat.zero_add] at hphase
  -- The lexemes that end at or before the line start are those of the text before it.
  refine ⟨Registry.stock.after .initial (Registry.stock.grammar.scanText a), ?_, ?_⟩
  · rw [Session.filter_stop_scanText stock_onOneLine ha]
    exact Registry.stock.walk_eq_after State.consistent_initial _
  · rw [hended]
    exact hphase

/-- **The lexer is in a script behind an odd number of lines that start with four dots.** It agrees
with the extraction of blocks, which counts delimiter lines, if and only if the number of lines that
only one of the two takes for a delimiter line is even. -/
theorem script_iff_odd {text : Text} (h : Unmarked text) {pos : Nat}
    (hstart : IsLineStart text pos) :
    ∃ s, Registry.stock.walk .initial
        ((Registry.stock.grammar.scanText text).filter fun l => l.stop ≤ pos) = .ok s ∧
      (s.mode = .script ↔ Odd ((endedBy pos (lines text)).countP startsWithDots)) ∧
      ((s.mode = .script ↔ Odd ((endedBy pos (lines text)).countP Block.isDelimiter)) ↔
        Even ((endedBy pos (lines text)).countP fun l =>
          startsWithDots l != Block.isDelimiter l)) := by
  obtain ⟨s, hs, hphase⟩ := exists_walk_phase h hstart
  refine ⟨s, hs, ?_⟩
  rw [← State.phase_eq_one_iff, hphase, Nat.odd_iff, Nat.odd_iff, Nat.even_iff, countP_bne]
  omega

/-- Two lines that part the readers, behind a blank and before a letter, and two that do not. -/
theorem script_iff_odd_parted_twice :
    ∃ text : Text, text = " ....\n....x\n.....\t\n....\nab".toList ∧ Unmarked text ∧
      IsLineStart text 24 ∧
      ((endedBy 24 (lines text)).countP fun l => startsWithDots l != Block.isDelimiter l) = 2 ∧
      ∃ s, Registry.stock.walk .initial
          ((Registry.stock.grammar.scanText text).filter fun l => l.stop ≤ 24) = .ok s ∧
        s.mode = .script ∧ Odd ((endedBy 24 (lines text)).countP Block.isDelimiter) := by
  obtain ⟨text, htext⟩ : ∃ text : Text, text = " ....\n....x\n.....\t\n....\nab".toList :=
    ⟨_, rfl⟩
  have hunmarked : Unmarked text := by
    rw [htext]
    decide
  have hstart : IsLineStart text 24 := by
    rw [htext]
    decide
  have hcounts : (endedBy 24 (lines text)).countP startsWithDots = 3 ∧
      ((endedBy 24 (lines text)).countP fun l => startsWithDots l != Block.isDelimiter l) = 2 := by
    rw [htext]
    decide
  obtain ⟨s, hs, hlexer, hboth⟩ := script_iff_odd hunmarked hstart
  have hscript : s.mode = .script := hlexer.2 (by rw [hcounts.1]; decide)
  exact ⟨text, htext, hunmarked, hstart, hcounts.2, s, hs, hscript,
    (hboth.2 (by rw [hcounts.2]; decide)).1 hscript⟩

/-- At a line start the lexer is in a script behind an even number of delimiter lines, or out of one
behind an odd number. -/
def ReadsApart (text : Text) (pos : Nat) : Prop :=
  IsLineStart text pos ∧ pos < byteSize text ∧
    ∃ s, Registry.stock.walk .initial
        ((Registry.stock.grammar.scanText text).filter fun l => l.stop ≤ pos) = .ok s ∧
      ¬ (s.mode = .script ↔ Odd ((endedBy pos (lines text)).countP Block.isDelimiter))

/-- **One line parts the readers.** The extraction of blocks takes a line of dots behind a blank for
a delimiter line and the lexer does not; it is the other way round where a letter stands behind the
dots. -/
theorem readsApart_of_one_line :
    (Unmarked " ....\nx".toList ∧ ReadsApart " ....\nx".toList 6) ∧
      Unmarked "....x\ny".toList ∧ ReadsApart "....x\ny".toList 6 := by
  have hblank : Unmarked " ....\nx".toList ∧ IsLineStart " ....\nx".toList 6 := by decide
  have hletter : Unmarked "....x\ny".toList ∧ IsLineStart "....x\ny".toList 6 := by decide
  obtain ⟨s, hs, hphase⟩ := exists_walk_phase hblank.1 hblank.2
  obtain ⟨t, ht, hphase'⟩ := exists_walk_phase hletter.1 hletter.2
  refine ⟨⟨hblank.1, hblank.2, by decide, s, hs, ?_⟩, hletter.1, hletter.2, by decide, t, ht, ?_⟩
  · rw [← State.phase_eq_one_iff, hphase]
    decide
  · rw [← State.phase_eq_one_iff, hphase']
    decide

end TemplateStyler
