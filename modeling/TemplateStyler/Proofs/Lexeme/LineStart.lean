import TemplateStyler.Proofs.Lexeme.Partition
import TemplateStyler.Proofs.Lexeme.Quoted

/-!
# Lexemes that stand at line starts

Inside a line dots, dashes, exclamation and equals signs and angle brackets are scanned one by one,
but for a dot before a digit, which belongs to a number. A lexeme of two of these characters or more
starts a line.

* `Lexeme.Taken.isLineStart`: **a lexeme that starts with one of them and goes on with something
  else than a digit stands at a line start.**
* `Grammar.scan_dots`: **at a line start four dots or more are one lexeme.**
-/

namespace TemplateStyler

open Text Lexeme

/-- The characters that are scanned one by one inside a line. -/
def solitary : List Char := ['.', '=', '<', '>', '-', '!']

theorem cases_of_solitary {c : Char} (hc : c ∈ solitary) :
    c = '.' ∨ c = '=' ∨ c = '<' ∨ c = '>' ∨ c = '-' ∨ c = '!' := by
  simpa [solitary] using hc

namespace Grammar

variable {g : Grammar}

theorem taken_of_mem_scanText {text : Text} {l : Lexeme} (h : l ∈ g.scanText text) :
    l.Taken g text := by
  have htaken : l.Taken g ([] ++ text) := taken_of_mem_scan h
  rwa [List.nil_append] at htaken

/-- A number that starts with a dot has a digit behind it. -/
theorem extent?_number_dot (g : Grammar) (lineStart : Bool) {cs : Text}
    (h : cs.head?.any Char.isDigit = false) :
    Rule.extent? g lineStart ('.' :: cs) .number = none := by
  have hdigits : atLeast 1 Char.isDigit cs = none := by
    cases cs with
    | nil => rfl
    | cons c cs => exact startsWith_atLeast (by decide) _ c cs h
  have hdot : atLeast 1 Char.isDigit ('.' :: cs) = none := rfl
  have hpoint : both (literal ['.']) (atLeast 1 Char.isDigit) ('.' :: cs) = none := by
    have hboth := both_literal ['.'] (atLeast 1 Char.isDigit) cs
    rwa [hdigits, Option.map_none] at hboth
  simp only [Rule.extent?, both, hdot, Option.bind_none, Option.none_or]
  exact hpoint

/-- Inside a line the rules take one of these characters alone. -/
theorem findSome?_solitary (g : Grammar) {c : Char} {cs : Text} (hc : c ∈ solitary)
    (hcs : cs.head?.any Char.isDigit = false) :
    Rule.all.findSome? (Rule.extent? g false (c :: cs)) = some 1 := by
  by_cases hdot : c = '.'
  · subst hdot
    have hrules : Rule.all.filter (Rule.canStart false '.') = [.number, .other] := by decide
    rw [g.findSome?_rules hrules, List.findSome?_cons, extent?_number_dot g false hcs]
    rfl
  · have hrules : Rule.all.filter (Rule.canStart false c) = [.other] := by
      rcases (cases_of_solitary hc).resolve_left hdot with rfl | rfl | rfl | rfl | rfl <;> decide
    rw [g.findSome?_rules hrules]
    rfl

end Grammar

/-- **A lexeme of two characters that are scanned one by one inside a line starts a line.** -/
theorem Lexeme.Taken.isLineStart {g : Grammar} {text : Text} {l : Lexeme} (h : l.Taken g text)
    {c d : Char} {rest : Text} (hl : l.text = c :: d :: rest) (hc : c ∈ solitary)
    (hd : d.isDigit = false) : IsLineStart text l.start := by
  obtain ⟨before, behind, rfl, hstart, hfound⟩ := h
  rw [hstart]
  refine isLineStart_append.2 ?_
  by_contra hnot
  rw [WholeLines, Bool.not_eq_true] at hnot
  have halone : Rule.all.findSome? (Rule.extent? g false (c :: d :: (rest ++ behind))) = some 1 :=
    Grammar.findSome?_solitary g hc hd
  rw [hnot, hl, List.cons_append, List.cons_append, halone] at hfound
  simp at hfound

namespace Grammar

theorem run_dots (n : Nat) {b : Text} (hb : b.head? ≠ some '.') :
    run (· == '.') (List.replicate n '.' ++ b) = n := by
  have hall : ∀ c ∈ List.replicate n '.', (c == '.') = true := by simp
  have hnone : b.takeWhile (· == '.') = [] := by
    cases b with
    | nil => rfl
    | cons c b => exact List.takeWhile_cons_of_neg (by simpa using hb)
  rw [run, List.takeWhile_append_of_pos hall, hnone, List.append_nil, List.length_replicate]

/-- At a line start the rule for dots is the first one, and takes all of them. -/
theorem extent_dots (g : Grammar) {cs : Text} (h : 4 ≤ run (· == '.') ('.' :: cs)) :
    g.extent true ('.' :: cs) = run (· == '.') ('.' :: cs) := by
  have hdots : Rule.extent? g true ('.' :: cs) .dots = some (run (· == '.') ('.' :: cs)) := by
    simp only [Rule.extent?, if_true, atLeast]
    exact if_pos h
  refine extent_of_rules [.dots, .headerKey, .number, .other] (by decide) ?_
    (Nat.le_trans (by decide) h)
  rw [List.findSome?_cons, hdots]

/-- **At a line start four dots or more are one lexeme.** -/
theorem scan_dots (g : Grammar) {n : Nat} (hn : 4 ≤ n) {b : Text}
    (hb : b.head? ≠ some '.') (pos : Nat) :
    g.scan pos true (List.replicate n '.' ++ b) =
      ⟨pos, List.replicate n '.'⟩ :: g.scan (pos + byteSize (List.replicate n '.')) false b := by
  obtain ⟨k, rfl⟩ : ∃ k, n = k + 1 := ⟨n - 1, by omega⟩
  have hrun := run_dots (k + 1) hb
  have hextent : g.extent true (List.replicate (k + 1) '.' ++ b) =
      (List.replicate (k + 1) '.').length := by
    rw [List.replicate_succ, List.cons_append] at hrun ⊢
    rw [g.extent_dots (hrun ▸ hn), hrun, List.length_cons, List.length_replicate]
  have hscan := scan_of_extent (by simp) hextent pos
  have hends : ((List.replicate (k + 1) '.').getLast? == some '\n') = false := by
    rw [List.getLast?_replicate, if_neg (Nat.succ_ne_zero k)]
    rfl
  rwa [hends] at hscan

end Grammar

end TemplateStyler
