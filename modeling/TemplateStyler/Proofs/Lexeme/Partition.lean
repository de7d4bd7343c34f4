import TemplateStyler.Proofs.Lexeme.Scan

/-!
# Scans as partitions

A scan cuts a range of a text into lexemes, whatever the names of the registry are. No rule takes
nothing, and none takes more than there is, so that every lexeme is exactly what a rule takes.

* `Reads k reader`: the reader takes at least `k` characters and at most those that there are.
* `Rule.extent?_bounds`: every rule takes a character or more. `Grammar.findSome?_eq_extent`: some
  rule always gives the length of the next lexeme.
* `Lexeme.Taken`: a lexeme is what the first rule that matches takes at its place.
* `lexemes_partition`: **the lexemes of a range partition it.**
-/

namespace TemplateStyler

open Text

/-! ### How much readers take -/

namespace Lexeme

/-- A reader that takes at least `k` characters, and at most those that there are. -/
def Reads (k : Nat) (reader : List Char → Option Nat) : Prop :=
  ∀ cs n, reader cs = some n → k ≤ n ∧ n ≤ cs.length

theorem Reads.mono {j k : Nat} {reader : List Char → Option Nat} (h : Reads k reader)
    (hjk : j ≤ k) : Reads j reader := fun cs n hn =>
  ⟨Nat.le_trans hjk (h cs n hn).1, (h cs n hn).2⟩

theorem reads_atLeast (k : Nat) (p : Char → Bool) : Reads k (atLeast k p) := by
  intro cs n hn
  rw [atLeast] at hn
  split at hn
  · next hle =>
    cases hn
    exact ⟨hle, run_le_length p cs⟩
  · cases hn

theorem reads_literal (word : List Char) : Reads word.length (literal word) := by
  intro cs n hn
  rw [literal] at hn
  split at hn
  · next hprefix =>
    cases hn
    exact ⟨Nat.le_refl _, (List.isPrefixOf_iff_prefix.1 hprefix).length_le⟩
  · cases hn

theorem Reads.findSome? {α : Type} {k : Nat} {reader : α → List Char → Option Nat}
    {items : List α} (h : ∀ x ∈ items, Reads k (reader x)) :
    Reads k fun cs => items.findSome? fun x => reader x cs := by
  intro cs n hn
  obtain ⟨x, hx, hn⟩ := List.exists_of_findSome?_eq_some hn
  exact h x hx cs n hn

theorem reads_oneOf {k : Nat} {words : List String} (h : ∀ word ∈ words, k ≤ word.toList.length) :
    Reads k (oneOf words) :=
  Reads.findSome? fun word hword => (reads_literal word.toList).mono (h word hword)

theorem Reads.both {j k : Nat} {first second : List Char → Option Nat} (h1 : Reads j first)
    (h2 : Reads k second) : Reads (j + k) (both first second) := by
  intro cs n hn
  obtain ⟨m, hm, hn⟩ := Option.bind_eq_some_iff.1 hn
  obtain ⟨m', hm', rfl⟩ := Option.map_eq_some_iff.1 hn
  have hfirst := h1 cs m hm
  have hsecond := h2 (cs.drop m) m' hm'
  rw [List.length_drop] at hsecond
  omega

theorem Reads.optional {k : Nat} {reader : List Char → Option Nat} (h : Reads k reader) :
    Reads 0 (optional reader) := by
  intro cs n hn
  cases hn
  cases hreader : reader cs with
  | none => simp
  | some m => exact ⟨Nat.zero_le _, (h cs m hreader).2⟩

theorem Reads.or {k : Nat} {first second : List Char → Option Nat} (h1 : Reads k first)
    (h2 : Reads k second) : Reads k fun cs => (first cs).or (second cs) := by
  intro cs n hn
  rcases Option.or_eq_some_iff.1 hn with hn | ⟨-, hn⟩
  · exact h1 cs n hn
  · exact h2 cs n hn

/-- The names may be empty: what follows them is read all the same. -/
theorem Reads.named {k : Nat} {reader : List Char → Option Nat} (h : Reads k reader)
    (names : List Text) : Reads k (named names reader) :=
  Reads.findSome? fun name _ => ((reads_literal name).both h).mono (Nat.le_add_left _ _)

theorem Reads.afterBlanks {k : Nat} {reader : List Char → Option Nat} (h : Reads k reader) :
    Reads k (afterBlanks reader) := by
  intro cs n hn
  obtain ⟨m, hmem, hn⟩ := List.exists_of_findSome?_eq_some hn
  obtain ⟨m', hm', rfl⟩ := Option.map_eq_some_iff.1 hn
  have hblanks : m ≤ run isBlank cs := by simpa [Nat.lt_succ_iff] using hmem
  have hrun := run_le_length isBlank cs
  have hreader := h (cs.drop m) m' hm'
  rw [List.length_drop] at hreader
  omega

theorem reads_skipBlanks : Reads 0 skipBlanks := reads_atLeast 0 isBlank

theorem reads_hashComment : Reads 1 hashComment := by
  have hblank : Reads 0 fun cs : List Char => if cs.head?.any isBlank then some 1 else none := by
    intro cs n hn
    cases cs with
    | nil => simp at hn
    | cons c cs =>
      simp only at hn
      split at hn
      · cases hn
        simp
      · cases hn
  exact (reads_literal ['#']).both (hblank.both (reads_atLeast 0 _))

theorem reads_annotation : Reads 0 annotation :=
  ((reads_literal ['[']).both ((reads_atLeast 0 _).both (reads_literal [']']))).mono
    (Nat.zero_le _)

theorem reads_lineEnd : Reads 0 lineEnd := by
  intro cs n hn
  unfold lineEnd at hn
  split at hn <;> cases hn <;> simp

end Lexeme

/-! ### Rules -/

open Lexeme

theorem reads_onLineStart {k : Nat} {reader : List Char → Option Nat} (h : Reads k reader)
    (lineStart : Bool) : Reads k fun cs => if lineStart then reader cs else none := by
  cases lineStart with
  | true => exact h
  | false => exact fun cs n hn => by cases hn

/-- **A rule takes a character or more, and no more than there are**, whatever the names are. -/
theorem Rule.extent?_bounds (g : Grammar) {lineStart : Bool} {cs : List Char} (hne : cs ≠ [])
    {rule : Rule} {n : Nat} (h : rule.extent? g lineStart cs = some n) :
    1 ≤ n ∧ n ≤ cs.length := by
  have hreads : rule ≠ .other → Reads 1 fun cs => rule.extent? g lineStart cs := by
    intro hrule
    have hone : ∀ c, Reads 1 (literal [c]) := fun c => reads_literal [c]
    have hdigits : Reads 1 (atLeast 1 Char.isDigit) := reads_atLeast 1 _
    cases rule with
    | dots => exact reads_onLineStart ((reads_atLeast 4 _).mono (by decide)) lineStart
    | argumentTag => exact (hone '#').both ((hone '{').named _ |>.mono (Nat.zero_le _))
    | hashName =>
      exact (hone '#').both
        (((reads_atLeast 1 _).both reads_annotation.optional).mono (Nat.zero_le _))
    | disabledInclusion => exact reads_onLineStart (reads_oneOf (by decide)) lineStart
    | directoryChange =>
      have hdirectory : Reads 1 (oneOf ["DIR:", "ROOT:"]) := reads_oneOf (by decide)
      exact reads_onLineStart (((reads_literal ['-', '-']).both
        ((reads_atLeast 1 _).both hdirectory)).mono (by decide)) lineStart
    | inclusion => exact reads_onLineStart (reads_oneOf (by decide)) lineStart
    | headerDelimiter => exact reads_onLineStart ((reads_atLeast 3 _).mono (by decide)) lineStart
    | coreOpening => exact reads_onLineStart ((reads_atLeast 3 _).mono (by decide)) lineStart
    | coreClosing => exact reads_onLineStart ((reads_atLeast 3 _).mono (by decide)) lineStart
    | headerKey =>
      exact reads_onLineStart ((reads_skipBlanks.both (hone '=')).named _).afterBlanks lineStart
    | lineComment => exact reads_onLineStart (reads_skipBlanks.both reads_hashComment) lineStart
    | trailingComment =>
      exact ((reads_atLeast 1 _).both reads_hashComment).mono (by decide)
    | hashMark => exact reads_oneOf (by decide)
    | answer => exact reads_onLineStart (reads_oneOf (by decide)) lineStart
    | conditionalAnswer => exact reads_oneOf (by decide)
    | alternativeVersion =>
      exact reads_onLineStart (((reads_literal ['O', 'R']).both
        (reads_skipBlanks.both reads_lineEnd)).mono (by decide)) lineStart
    | escapedQuote => exact reads_oneOf (by decide)
    | macroName =>
      have hletters : Reads 1 (both (literal ['\\']) (atLeast 1 Char.isAlpha)) :=
        ((hone '\\').both (reads_atLeast 1 _)).mono (by decide)
      exact hletters.or (reads_oneOf (by decide))
    | tripleQuote => exact reads_oneOf (by decide)
    | newline => exact reads_oneOf (by decide)
    | blanks => exact reads_atLeast 1 _
    | number =>
      have hpoint : Reads 1 (both (literal ['.']) (atLeast 1 Char.isDigit)) :=
        ((hone '.').both hdigits).mono (by decide)
      exact (((hdigits.both hpoint).mono (by decide)).or hdigits).or hpoint
    | word => exact reads_atLeast 1 _
    | other => exact absurd rfl hrule
  by_cases hrule : rule = .other
  · subst hrule
    cases h
    exact ⟨Nat.le_refl 1, List.length_pos_iff.2 hne⟩
  · exact hreads hrule cs n h

namespace Grammar

/-- **The length of the next lexeme is what a rule takes**, and lies within the text. -/
theorem findSome?_eq_extent (g : Grammar) (lineStart : Bool) {cs : List Char} (hne : cs ≠ []) :
    Rule.all.findSome? (Rule.extent? g lineStart cs) = some (g.extent lineStart cs) ∧
      g.extent lineStart cs ≤ cs.length := by
  have hother : (Rule.all.findSome? (Rule.extent? g lineStart cs)).isSome = true :=
    List.findSome?_isSome_iff.2 ⟨.other, by decide, rfl⟩
  obtain ⟨n, hn⟩ := Option.isSome_iff_exists.1 hother
  obtain ⟨rule, -, hrule⟩ := List.exists_of_findSome?_eq_some hn
  obtain ⟨hpos, hle⟩ := Rule.extent?_bounds g hne hrule
  rw [extent, hn, Option.getD_some, Nat.max_eq_right hpos]
  exact ⟨rfl, hle⟩

end Grammar

/-! ### Lexemes at their places -/

/-- A lexeme is what the first rule that matches takes at its place in a text. -/
def Lexeme.Taken (g : Grammar) (text : Text) (l : Lexeme) : Prop :=
  ∃ before behind, text = before ++ (l.text ++ behind) ∧ l.start = byteSize before ∧
    Rule.all.findSome? (Rule.extent? g (before.getLast?.all (· == '\n')) (l.text ++ behind)) =
      some l.text.length

namespace Grammar

/-- **Every lexeme of a scan is what a rule takes at its place.** -/
theorem taken_of_mem_scan {g : Grammar} {a cs : Text} {l : Lexeme}
    (h : l ∈ g.scan (byteSize a) (a.getLast?.all (· == '\n')) cs) : l.Taken g (a ++ cs) := by
  induction hlength : cs.length using Nat.strongRecOn generalizing a cs with
  | _ length ih =>
    cases cs with
    | nil => simp [scan] at h
    | cons c cs =>
      obtain ⟨hfound, hle⟩ :=
        g.findSome?_eq_extent (a.getLast?.all (· == '\n')) (List.cons_ne_nil c cs)
      have hpos := g.one_le_extent (a.getLast?.all (· == '\n')) (c :: cs)
      rw [scan] at h
      generalize g.extent (a.getLast?.all (· == '\n')) (c :: cs) = n at hfound hle hpos h
      have hcut := List.take_append_drop n (c :: cs)
      rcases List.mem_cons.1 h with rfl | h
      · refine ⟨a, (c :: cs).drop n, by rw [hcut], rfl, ?_⟩
        rw [hcut, hfound, List.length_take, Nat.min_eq_left hle]
      · -- the rest is scanned from just behind the first lexeme
        have hne : (c :: cs).take n ≠ [] := by
          rw [Ne, List.take_eq_nil_iff]
          simp only [List.cons_ne_nil, or_false]
          omega
        have hstop : (⟨byteSize a, (c :: cs).take n⟩ : Lexeme).stop =
            byteSize (a ++ (c :: cs).take n) := by
          rw [Lexeme.stop, Lexeme.size, byteSize_append]
        have hends : (⟨byteSize a, (c :: cs).take n⟩ : Lexeme).endsLine =
            (a ++ (c :: cs).take n).getLast?.all (· == '\n') := by
          rw [Lexeme.endsLine, List.getLast?_append, Option.or_of_isSome (by simpa using hne),
            List.getLast?_eq_some_getLast hne]
          rfl
        rw [hstop, hends] at h
        have htaken := ih _ (by simp only [List.length_drop, List.length_cons] at hlength ⊢; omega)
          h rfl
        rwa [List.append_assoc, hcut] at htaken

end Grammar

/-! ### Partitions -/

/-- Lexemes cut a text from one position to another one. -/
structure Lexeme.Partition (text : Text) (start stop : Nat) (ls : List Lexeme) : Prop where
  nonempty : ∀ l ∈ ls, l.text ≠ []
  /-- The first lexeme starts at the first position, and each other one where the one before it
  stops. -/
  consecutive : Consecutive start ls
  /-- The last lexeme stops at the second position. -/
  last : ∀ l ∈ ls.getLast?, l.stop = stop
  boundaries : ∀ l ∈ ls, isBoundary text l.start = true ∧ isBoundary text l.stop = true
  /-- Together the lexemes make up the part of the text between the two positions. -/
  parts : slice? text start stop = some (ls.map Lexeme.text).flatten

namespace Grammar

/-- A scan partitions the part of a text that it reads. -/
theorem partition_scan (g : Grammar) (a b c : Text) :
    Partition (a ++ (b ++ c)) (byteSize a) (byteSize (a ++ b))
      (g.scan (byteSize a) (a.getLast?.all (· == '\n')) b) := by
  have hconsecutive := g.consecutive_scan (byteSize a) (a.getLast?.all (· == '\n')) b
  have htotal := g.total_scan (byteSize a) (a.getLast?.all (· == '\n')) b
  refine ⟨fun l => ne_nil_of_mem_scan, hconsecutive, ?_, ?_, ?_⟩
  · intro l hl
    obtain ⟨before, hls⟩ := List.getLast?_eq_some_iff.1 hl
    rw [hls, consecutive_append] at hconsecutive
    rw [hls, total_append, total_cons, total_nil] at htotal
    have hlstart := hconsecutive.2.1
    rw [Lexeme.stop, byteSize_append]
    omega
  · intro l hl
    obtain ⟨before, behind, hsplit, hlstart, -⟩ := taken_of_mem_scan hl
    have htext : a ++ (b ++ c) = before ++ (l.text ++ (behind ++ c)) := by
      rw [← List.append_assoc, hsplit]
      simp
    rw [Lexeme.stop, hlstart, Lexeme.size, ← byteSize_append, htext]
    exact ⟨isBoundary_append _ _, by rw [← List.append_assoc]; exact isBoundary_append _ _⟩
  · rw [flatten_scan, slice?_append]

/-- **The lexemes of a range partition it.** For any names, and any two numbers that are positions
of the text once the first is lowered to the second and the second to the end of the text, there are
lexemes. None is empty, they follow each other from the one position to the other and lie on
positions of the text, and together they make up its part between the two. Each is what a rule takes
at its place, of the text up to the second position. -/
theorem lexemes_partition (r : Registry) {text : Text} {start stop : Nat}
    (hstop : isBoundary text (min stop (byteSize text)) = true)
    (hstart : isBoundary text (min start (min stop (byteSize text))) = true) :
    ∃ ls, r.grammar.lexemes text start stop = .ok ls ∧
      Partition text (min start (min stop (byteSize text))) (min stop (byteSize text)) ls ∧
      ∀ l ∈ ls, l.Taken r.grammar (upTo text (min stop (byteSize text))) := by
  obtain ⟨a, b, c, htext, hfirst, hlast⟩ := exists_middle hstart hstop (Nat.min_le_right _ _)
  rw [← hfirst, ← hlast]
  rw [← hlast] at hfirst
  subst htext
  refine ⟨_, lexemes_middle _ a b c hlast.symm hfirst.symm, partition_scan _ a b c, ?_⟩
  intro l hl
  rw [← List.append_assoc, upTo_append]
  exact taken_of_mem_scan hl

/-- An empty key, a tag made of signs, and a range that starts behind the key of the first line. -/
theorem lexemes_partition_signs :
    isBoundary " =é\n =#.*\x7bé".toList (min 11 13) = true ∧
    isBoundary " =é\n =#.*\x7bé".toList (min 2 (min 11 13)) = true ∧
    ∃ ls, (Registry.grammar { argumentTags := [".*".toList], headerKeys := [[]] }).lexemes
        " =é\n =#.*\x7bé".toList 2 11 = .ok ls ∧
      ls.map Lexeme.text = ["é".toList, "\n".toList, " =".toList, "#.*\x7b".toList] ∧
      Partition " =é\n =#.*\x7bé".toList 2 11 ls := by
  have hstop : isBoundary " =é\n =#.*\x7bé".toList (min 11 13) = true := by decide
  have hstart : isBoundary " =é\n =#.*\x7bé".toList (min 2 (min 11 13)) = true := by decide
  have htexts : ((Registry.grammar { argumentTags := [".*".toList], headerKeys := [[]] }).lexemes
      " =é\n =#.*\x7bé".toList 2 11).toOption.map (List.map Lexeme.text) =
      some ["é".toList, "\n".toList, " =".toList, "#.*\x7b".toList] := by
    decide +kernel
  obtain ⟨ls, hls, hpartition, -⟩ := lexemes_partition
    { argumentTags := [".*".toList], headerKeys := [[]] } hstop hstart
  rw [hls] at htexts
  exact ⟨hstop, hstart, ls, hls, Option.some.inj htexts, hpartition⟩

end Grammar

end TemplateStyler
