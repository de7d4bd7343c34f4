import TemplateStyler.Proofs.Fault
import TemplateStyler.Proofs.Lexeme.Partition

/-!
# Bounded scans

A scan that is bounded sees nothing behind the end of its range. There it may cut a lexeme of the
full scan, and what is left of that lexeme may read as several others. Before it the two scans give
the same lexemes, but for the last one of the bounded scan, which may end with the range.

* `CutsOn`: what a reader takes on a part of a text, as against the whole. A reader `Settles` if
  more text changes nothing of what it takes before the end of the part; what is read behind it may
  then fail, but not start to match (`Cuts.both`).
* `Rule.cut`: what a rule takes on a part. Only the separator of versions can match on it alone, and
  then it takes all of it.
* `Grammar.extent_cut`: **the next lexeme of a part is that of the whole, or the whole part**, if
  that of the whole lies within the part.
* `Grammar.lexemes_bounded`: **of the lexemes of a bounded scan but the last, those of the full scan
  are those that do not lie in the lexeme that the end of the range cuts.**
-/

namespace TemplateStyler

open Text

/-! ### Readers on a part of a text -/

namespace Lexeme

/-- On the first part of a text a reader takes what it takes on the whole, where that lies within
the part, and nothing if it takes nothing on the whole. -/
structure CutsOn (reader : Text → Option Nat) (a c : Text) : Prop where
  same : ∀ n, reader (a ++ c) = some n → n ≤ a.length → reader a = some n
  none : reader (a ++ c) = none → reader a = none

/-- A reader that starts to match on no part of a text. -/
def Cuts (reader : Text → Option Nat) : Prop := ∀ a c, CutsOn reader a c

/-- A reader to which more text makes no difference, where it does not take all there is. -/
def Settles (reader : Text → Option Nat) : Prop :=
  ∀ a c n, reader a = some n → n < a.length → reader (a ++ c) = some n

/-- A run goes on behind a part only from its end. -/
theorem run_append (p : Char → Bool) (a c : Text) :
    run p (a ++ c) = if run p a = a.length then a.length + run p c else run p a := by
  rw [run, run, List.takeWhile_append]
  split_ifs <;> simp [run]

theorem cuts_atLeast (k : Nat) (p : Char → Bool) : Cuts (atLeast k p) := by
  intro a c
  have hle := run_le_length p a
  refine ⟨fun n hn hna => ?_, fun hnone => ?_⟩
  · rw [atLeast, run_append] at hn
    rw [atLeast]
    split_ifs at hn ⊢ <;> simp only [Option.some.injEq] at hn ⊢ <;> omega
  · rw [atLeast, run_append] at hnone
    rw [atLeast]
    split_ifs at hnone ⊢ <;> first | rfl | omega

theorem settles_atLeast (k : Nat) (p : Char → Bool) : Settles (atLeast k p) := by
  intro a c n hn hna
  rw [atLeast] at hn
  split at hn
  · next hk =>
    cases hn
    rw [atLeast, run_append, if_neg (Nat.ne_of_lt hna), if_pos hk]
  · cases hn

/-- A word at the start of a part stands at the start of the whole. -/
theorem literal_append {word a : Text} {n : Nat} (h : literal word a = some n) (c : Text) :
    literal word (a ++ c) = some n := by
  rw [literal] at h ⊢
  split at h
  · next hprefix =>
    rw [if_pos, h]
    exact List.isPrefixOf_iff_prefix.2
      ((List.isPrefixOf_iff_prefix.1 hprefix).trans (List.prefix_append a c))
  · cases h

theorem settles_literal (word : Text) : Settles (literal word) := fun _ c _ h _ =>
  literal_append h c

theorem cuts_literal (word : Text) : Cuts (literal word) := by
  intro a c
  refine ⟨fun n hn hna => ?_, fun hnone => ?_⟩
  · rw [literal] at hn
    split at hn
    · next hprefix =>
      cases hn
      rw [literal, if_pos]
      exact List.isPrefixOf_iff_prefix.2 (List.prefix_of_prefix_length_le
        (List.isPrefixOf_iff_prefix.1 hprefix) (List.prefix_append a c) hna)
    · cases hn
  · rw [Option.eq_none_iff_forall_ne_some]
    intro n hn
    rw [literal_append hn] at hnone
    cases hnone

theorem CutsOn.or {first second : Text → Option Nat} {a c : Text} (h1 : CutsOn first a c)
    (h2 : CutsOn second a c) : CutsOn (fun cs => (first cs).or (second cs)) a c := by
  refine ⟨fun n hn hna => ?_, fun hnone => ?_⟩
  · rcases Option.or_eq_some_iff.1 hn with hn | ⟨hnone, hn⟩
    · exact Option.or_eq_some_iff.2 (Or.inl (h1.same n hn hna))
    · exact Option.or_eq_some_iff.2 (Or.inr ⟨h1.none hnone, h2.same n hn hna⟩)
  · obtain ⟨hfirst, hsecond⟩ := Option.or_eq_none_iff.1 hnone
    exact Option.or_eq_none_iff.2 ⟨h1.none hfirst, h2.none hsecond⟩

theorem Cuts.or {first second : Text → Option Nat} (h1 : Cuts first) (h2 : Cuts second) :
    Cuts fun cs => (first cs).or (second cs) := fun a c => (h1 a c).or (h2 a c)

theorem cutsOn_findSome? {α : Type} (reader : α → Text → Option Nat) {items : List α} {a c : Text}
    (h : ∀ x ∈ items, CutsOn (reader x) a c) :
    CutsOn (fun cs => items.findSome? fun x => reader x cs) a c := by
  induction items with
  | nil => exact ⟨fun n hn => (nomatch hn), fun _ => rfl⟩
  | cons x items ih =>
    have hcons : (fun cs => (x :: items).findSome? fun x => reader x cs) =
        fun cs => (reader x cs).or (items.findSome? fun x => reader x cs) := by
      funext cs
      rw [List.findSome?_cons]
      cases reader x cs <;> rfl
    rw [hcons]
    exact (h x List.mem_cons_self).or (ih fun y hy => h y (List.mem_cons_of_mem _ hy))

theorem cuts_oneOf (words : List String) : Cuts (oneOf words) := fun a c =>
  cutsOn_findSome? (fun (word : String) => literal word.toList)
    fun word _ => cuts_literal word.toList a c

/-- What two readers take on the whole, one after the other, they take on the part. -/
theorem both_same {first second : Text → Option Nat} {a c : Text} {n : Nat}
    (h1 : ∀ m, first (a ++ c) = some m → m ≤ a.length → first a = some m)
    (h2 : ∀ b m, second (b ++ c) = some m → m ≤ b.length → second b = some m)
    (h : both first second (a ++ c) = some n) (hna : n ≤ a.length) :
    both first second a = some n := by
  obtain ⟨m, hm, h⟩ := Option.bind_eq_some_iff.1 h
  obtain ⟨k, hk, rfl⟩ := Option.map_eq_some_iff.1 h
  rw [List.drop_append_of_le_length (Nat.le_of_add_right_le hna)] at hk
  have hlength : k ≤ (a.drop m).length := by
    rw [List.length_drop]
    omega
  refine Option.bind_eq_some_iff.2 ⟨m, h1 m hm (Nat.le_of_add_right_le hna), ?_⟩
  exact Option.map_eq_some_iff.2 ⟨k, h2 _ k hk hlength, rfl⟩

/-- What stands behind the first part settles how much of it there is, if nothing is read from
nothing. -/
theorem Cuts.both {first second : Text → Option Nat} (h1 : Cuts first) (hsettles : Settles first)
    (hreads : Reads 0 first) (h2 : Cuts second) (hnil : second [] = none) :
    Cuts (both first second) := by
  intro a c
  refine ⟨fun n => both_same (h1 a c).same fun b => (h2 b c).same, fun hnone => ?_⟩
  rw [Option.eq_none_iff_forall_ne_some]
  intro n hn
  obtain ⟨m, hm, hn⟩ := Option.bind_eq_some_iff.1 hn
  obtain ⟨k, hk, rfl⟩ := Option.map_eq_some_iff.1 hn
  have hlt : m < a.length := by
    refine Nat.lt_of_le_of_ne (hreads a m hm).2 ?_
    rintro rfl
    rw [List.drop_length, hnil] at hk
    cases hk
  have hm' := hsettles a c m hm hlt
  rw [Lexeme.both, hm', Option.bind_some, Option.map_eq_none_iff,
    List.drop_append_of_le_length (Nat.le_of_lt hlt)] at hnone
  rw [(h2 _ c).none hnone] at hk
  cases hk

/-- A second reader that never fails leaves it to the first one whether there is a match. -/
theorem Cuts.both_of_total {first second : Text → Option Nat} (h1 : Cuts first) (h2 : Cuts second)
    (htotal : ∀ cs, second cs ≠ none) : Cuts (Lexeme.both first second) := by
  intro a c
  refine ⟨fun n => both_same (h1 a c).same fun b => (h2 b c).same, fun hnone => ?_⟩
  cases hfirst : first (a ++ c) with
  | none => rw [Lexeme.both, (h1 a c).none hfirst, Option.bind_none]
  | some m =>
    rw [Lexeme.both, hfirst, Option.bind_some, Option.map_eq_none_iff] at hnone
    exact absurd hnone (htotal _)

theorem Cuts.optional {reader : Text → Option Nat} (h : Cuts reader) : Cuts (optional reader) := by
  intro a c
  refine ⟨fun n hn hna => ?_, fun hnone => nomatch hnone⟩
  cases hreader : reader (a ++ c) with
  | none => 
    rw [Lexeme.optional, hreader] at hn
    rw [Lexeme.optional, (h a c).none hreader, ← hn]
  | some m =>
    rw [Lexeme.optional, hreader] at hn
    cases hn
    rw [Lexeme.optional, (h a c).same m hreader hna]

theorem cuts_named (names : List Text) {reader : Text → Option Nat} (h : Cuts reader)
    (hnil : reader [] = none) : Cuts (named names reader) := fun a c =>
  cutsOn_findSome? (fun name => both (literal name) reader) fun name _ =>
    (cuts_literal name).both (settles_literal name)
      ((reads_literal name).mono (Nat.zero_le _)) h hnil a c

/-- As many blanks stand at the start of a part as at the start of the whole, up to its end. -/
theorem Cuts.afterBlanks {reader : Text → Option Nat} (h : Cuts reader) :
    Cuts (afterBlanks reader) := by
  intro a c
  have hle := run_le_length isBlank a
  obtain ⟨more, hrun, hmore⟩ : ∃ more, run isBlank (a ++ c) = run isBlank a + more ∧
      (more ≠ 0 → run isBlank a = a.length) := by
    rw [run_append]
    split_ifs with hall
    · exact ⟨run isBlank c, by rw [hall], fun _ => hall⟩
    · exact ⟨0, rfl, fun hne => absurd rfl hne⟩
  let readAt (n : Nat) (cs : Text) : Option Nat := (reader (cs.drop n)).map (n + ·)
  -- on the whole there may be more blanks, all of them behind the part
  have hwhole : Lexeme.afterBlanks reader (a ++ c) =
      (((List.range more).map (run isBlank a + 1 + ·)).reverse.findSome?
        fun n => readAt n (a ++ c)).or
      ((List.range (run isBlank a + 1)).reverse.findSome? fun n => readAt n (a ++ c)) := by
    rw [Lexeme.afterBlanks, hrun, Nat.add_right_comm, List.range_add, List.reverse_append,
      List.findSome?_append]
  have hcuts : CutsOn (fun cs => (List.range (run isBlank a + 1)).reverse.findSome?
      fun n => readAt n cs) a c := by
    refine cutsOn_findSome? readAt fun n hn => ?_
    have hna : n ≤ a.length := by
      have := List.mem_range.1 (List.mem_reverse.1 hn)
      omega
    refine ⟨fun m hm hma => ?_, fun hnone => ?_⟩
    · obtain ⟨k, hk, rfl⟩ := Option.map_eq_some_iff.1 hm
      rw [List.drop_append_of_le_length hna] at hk
      refine Option.map_eq_some_iff.2 ⟨k, (h _ c).same k hk ?_, rfl⟩
      rw [List.length_drop]
      omega
    · rw [Option.map_eq_none_iff, List.drop_append_of_le_length hna] at hnone
      exact Option.map_eq_none_iff.2 ((h _ c).none hnone)
  refine ⟨fun n hn hna => ?_, fun hnone => ?_⟩
  · rw [hwhole] at hn
    rcases Option.or_eq_some_iff.1 hn with hn | ⟨-, hn⟩
    · obtain ⟨k, hk, hn⟩ := List.exists_of_findSome?_eq_some hn
      obtain ⟨i, hi, rfl⟩ := List.mem_map.1 (List.mem_reverse.1 hk)
      obtain ⟨m, -, rfl⟩ := Option.map_eq_some_iff.1 hn
      have hi' := List.mem_range.1 hi
      have := hmore (by omega)
      omega
    · exact hcuts.same n hn hna
  · rw [hwhole] at hnone
    exact hcuts.none (Option.or_eq_none_iff.1 hnone).2

theorem cuts_skipBlanks : Cuts skipBlanks := cuts_atLeast 0 isBlank

theorem settles_skipBlanks : Settles skipBlanks := settles_atLeast 0 isBlank

theorem cuts_hashComment : Cuts hashComment := by
  have hblank : Cuts fun cs : Text => if cs.head?.any isBlank then some 1 else none := by
    rintro (_ | ⟨d, a⟩) c
    · refine ⟨fun n hn hna => ?_, fun _ => rfl⟩
      split at hn <;> cases hn
      cases hna
    · exact ⟨fun n hn _ => hn, fun hnone => hnone⟩
  exact (cuts_literal ['#']).both (settles_literal _) ((reads_literal _).mono (Nat.zero_le _))
    (hblank.both_of_total (cuts_atLeast 0 _) fun cs => by simp [atLeast]) rfl

theorem cuts_annotation : Cuts annotation :=
  (cuts_literal ['[']).both (settles_literal _) ((reads_literal _).mono (Nat.zero_le _))
    ((cuts_atLeast 0 _).both (settles_atLeast 0 _) (reads_atLeast 0 _) (cuts_literal [']']) rfl) rfl

/-! ### The end of a line -/

theorem lineEnd_cases {cs : Text} {n : Nat} (h : lineEnd cs = some n) :
    (cs = [] ∧ n = 0) ∨ (∃ rest, cs = '\n' :: rest ∧ n = 1) ∨
      ∃ rest, cs = '\r' :: '\n' :: rest ∧ n = 2 := by
  unfold lineEnd at h
  split at h <;> cases h
  · exact Or.inl ⟨rfl, rfl⟩
  · exact Or.inr (Or.inl ⟨_, rfl, rfl⟩)
  · exact Or.inr (Or.inr ⟨_, rfl, rfl⟩)

/-- The end of a line on a part is one on the whole, except where the part ends. -/
theorem lineEnd_append {a : Text} {n : Nat} (h : lineEnd a = some n) (hne : a ≠ []) (c : Text) :
    lineEnd (a ++ c) = some n := by
  rcases lineEnd_cases h with ⟨rfl, -⟩ | ⟨rest, rfl, rfl⟩ | ⟨rest, rfl, rfl⟩
  · exact absurd rfl hne
  · rfl
  · rfl

theorem lineEnd_same {a c : Text} {n : Nat} (h : lineEnd (a ++ c) = some n) (hna : n ≤ a.length) :
    lineEnd a = some n := by
  rcases lineEnd_cases h with ⟨hnil, rfl⟩ | ⟨rest, hcons, rfl⟩ | ⟨rest, hcons, rfl⟩
  · rw [(List.append_eq_nil_iff.1 hnil).1]
    rfl
  · obtain ⟨d, a, rfl⟩ := List.exists_cons_of_length_pos hna
    rw [(List.cons.inj hcons).1]
    rfl
  · obtain ⟨d, a, rfl⟩ := List.exists_cons_of_length_pos (Nat.lt_of_succ_lt hna)
    obtain ⟨e, a, rfl⟩ := List.exists_cons_of_length_pos (Nat.lt_of_succ_lt_succ hna)
    obtain ⟨hd, hrest⟩ := List.cons.inj hcons
    rw [hd, (List.cons.inj hrest).1]
    rfl

/-- The blanks before the end of a line, with the end: on a part that more text does not lead on
from, they are all of the part. -/
theorem blanksAndEnd_append {a : Text} {n : Nat} (h : both skipBlanks lineEnd a = some n)
    (c : Text) : both skipBlanks lineEnd (a ++ c) = some n ∨ n = a.length := by
  obtain ⟨m, hm, h⟩ := Option.bind_eq_some_iff.1 h
  obtain ⟨k, hk, rfl⟩ := Option.map_eq_some_iff.1 h
  rcases Nat.lt_or_eq_of_le (reads_skipBlanks a m hm).2 with hlt | rfl
  · left
    have hne : a.drop m ≠ [] := by
      rw [Ne, List.drop_eq_nil_iff]
      omega
    rw [both, settles_skipBlanks a c m hm hlt, Option.bind_some,
      List.drop_append_of_le_length (Nat.le_of_lt hlt), lineEnd_append hk hne]
    rfl
  · right
    rw [List.drop_length] at hk
    cases hk
    rfl

end Lexeme

/-! ### Rules -/

open Lexeme

theorem cuts_onLineStart {reader : Text → Option Nat} (h : Cuts reader) (lineStart : Bool) :
    Cuts fun cs => if lineStart then reader cs else none := by
  cases lineStart with
  | true => exact h
  | false => exact fun a c => ⟨fun n hn => (nomatch hn), fun _ => rfl⟩

/-- **Every rule but that of the separator of versions starts to match on no part of a text.** -/
theorem Rule.cuts (g : Grammar) (lineStart : Bool) {rule : Rule}
    (hrule : rule ≠ .alternativeVersion) : Cuts fun cs => rule.extent? g lineStart cs := by
  have hliteral : ∀ word {second : Text → Option Nat}, Cuts second → second [] = none →
      Cuts (both (literal word) second) := fun word _ hcuts hnil =>
    (cuts_literal word).both (settles_literal word) ((reads_literal word).mono (Nat.zero_le _))
      hcuts hnil
  have hrun : ∀ k p {second : Text → Option Nat}, Cuts second → second [] = none →
      Cuts (both (atLeast k p) second) := fun k p _ hcuts hnil =>
    (cuts_atLeast k p).both (settles_atLeast k p) ((reads_atLeast k p).mono (Nat.zero_le _)) hcuts
      hnil
  have hdigits : Cuts (atLeast 1 Char.isDigit) := cuts_atLeast 1 _
  -- a name may be empty, but what follows it is not
  have hnamed : ∀ names {reader : Text → Option Nat}, reader [] = none →
      named names reader [] = none := by
    intro names reader hnil
    refine List.findSome?_eq_none_iff.2 fun name _ => ?_
    simp only [both, List.drop_nil, hnil, Option.map_none]
    cases literal name [] <;> rfl
  cases rule with
  | dots => exact cuts_onLineStart (cuts_atLeast 4 _) lineStart
  | argumentTag =>
    exact hliteral ['#'] (cuts_named g.argumentTags (cuts_literal ['{']) rfl)
      (hnamed g.argumentTags rfl)
  | hashName =>
    exact hliteral ['#']
      ((cuts_atLeast 1 _).both_of_total cuts_annotation.optional fun _ => Option.some_ne_none _) rfl
  | disabledInclusion => exact cuts_onLineStart (cuts_oneOf _) lineStart
  | directoryChange =>
    exact cuts_onLineStart (hliteral ['-', '-'] (hrun 1 _ (cuts_oneOf _) rfl) rfl) lineStart
  | inclusion => exact cuts_onLineStart (cuts_oneOf _) lineStart
  | headerDelimiter => exact cuts_onLineStart (cuts_atLeast 3 _) lineStart
  | coreOpening => exact cuts_onLineStart (cuts_atLeast 3 _) lineStart
  | coreClosing => exact cuts_onLineStart (cuts_atLeast 3 _) lineStart
  | headerKey =>
    exact cuts_onLineStart
      (cuts_named g.headerKeys (hrun 0 _ (cuts_literal ['=']) rfl) rfl).afterBlanks lineStart
  | lineComment => exact cuts_onLineStart (hrun 0 _ cuts_hashComment rfl) lineStart
  | trailingComment => exact hrun 1 _ cuts_hashComment rfl
  | hashMark => exact cuts_oneOf _
  | answer => exact cuts_onLineStart (cuts_oneOf _) lineStart
  | conditionalAnswer => exact cuts_oneOf _
  | alternativeVersion => exact absurd rfl hrule
  | escapedQuote => exact cuts_oneOf _
  | macroName => exact (hliteral ['\\'] (cuts_atLeast 1 _) rfl).or (cuts_oneOf _)
  | tripleQuote => exact cuts_oneOf _
  | newline => exact cuts_oneOf _
  | blanks => exact cuts_atLeast 1 _
  | number =>
    exact ((hrun 1 _ (hliteral ['.'] hdigits rfl) rfl).or hdigits).or (hliteral ['.'] hdigits rfl)
  | word => exact cuts_atLeast 1 _
  | other => exact fun a c => ⟨fun n hn _ => hn, fun hnone => hnone⟩

/-- **On a part of a text a rule takes what it takes on the whole, where that lies within the
part.** If it takes nothing on the whole, it takes nothing or all of the part. -/
theorem Rule.cut (g : Grammar) (lineStart : Bool) (rule : Rule) (a c : Text) :
    (∀ n, rule.extent? g lineStart (a ++ c) = some n → n ≤ a.length →
      rule.extent? g lineStart a = some n) ∧
    (rule.extent? g lineStart (a ++ c) = none →
      rule.extent? g lineStart a = none ∨ rule.extent? g lineStart a = some a.length) := by
  by_cases hrule : rule = .alternativeVersion
  · subst hrule
    cases lineStart with
    | false => exact ⟨fun n hn => (nomatch hn), fun _ => Or.inl rfl⟩
    | true =>
      have hsame : ∀ (b : Text) m, both skipBlanks lineEnd (b ++ c) = some m → m ≤ b.length →
          both skipBlanks lineEnd b = some m := fun b m =>
        both_same (cuts_skipBlanks b c).same fun _ _ => lineEnd_same
      refine ⟨fun n => both_same (cuts_literal ['O', 'R'] a c).same hsame, fun hnone => ?_⟩
      cases hpart : Rule.extent? g true a .alternativeVersion with
      | none => exact Or.inl rfl
      | some n =>
        obtain ⟨m, hm, hrest⟩ := Option.bind_eq_some_iff.1 hpart
        obtain ⟨k, hk, rfl⟩ := Option.map_eq_some_iff.1 hrest
        have hle := (reads_literal _ a m hm).2
        rcases blanksAndEnd_append hk c with hmore | rfl
        · have hwhole : Rule.extent? g true (a ++ c) .alternativeVersion = some (m + k) := by
            refine Option.bind_eq_some_iff.2 ⟨m, literal_append hm c, ?_⟩
            rw [List.drop_append_of_le_length hle, hmore]
            rfl
          rw [hwhole] at hnone
          cases hnone
        · rw [List.length_drop, Nat.add_sub_cancel' hle]
          exact Or.inr rfl
  · have hcuts := Rule.cuts g lineStart hrule a c
    exact ⟨hcuts.same, fun hnone => Or.inl (hcuts.none hnone)⟩

/-! ### Lexemes of a part -/

/-- Of consecutive lexemes one that starts at or before another one stops at or before its end. -/
theorem Lexeme.Consecutive.stop_le_of_start_le {pos : Nat} {ls : List Lexeme}
    (h : Consecutive pos ls) (hsize : ∀ l ∈ ls, 0 < l.size) {l m : Lexeme} (hl : l ∈ ls)
    (hm : m ∈ ls) (hle : m.start ≤ l.start) : m.stop ≤ l.stop := by
  have hstop : ∀ l : Lexeme, l.stop = l.start + l.size := fun _ => rfl
  induction ls generalizing pos with
  | nil => exact absurd hl List.not_mem_nil
  | cons first ls ih =>
    obtain ⟨-, hrest⟩ := h
    obtain ⟨hfirst, hsize⟩ := List.forall_mem_cons.1 hsize
    rcases List.mem_cons.1 hl with rfl | hl' <;> rcases List.mem_cons.1 hm with rfl | hm'
    · exact Nat.le_refl _
    · have hge := hrest.start_ge hm'
      have := hstop l
      omega
    · have hge := hrest.start_ge hl'
      have := hstop l
      omega
    · exact ih hrest hsize hl' hm'

namespace Grammar

/-- Of several rules the first one that matches on the whole does so on the part, if what it takes
lies within the part. A rule before it takes all of the part if it matches there. -/
theorem findSome?_cut (g : Grammar) (lineStart : Bool) (rules : List Rule) {a c : Text} {n : Nat}
    (h : rules.findSome? (Rule.extent? g lineStart (a ++ c)) = some n) (hna : n ≤ a.length) :
    rules.findSome? (Rule.extent? g lineStart a) = some n ∨
      rules.findSome? (Rule.extent? g lineStart a) = some a.length := by
  induction rules with
  | nil => cases h
  | cons rule rules ih =>
    obtain ⟨hsame, hnone⟩ := Rule.cut g lineStart rule a c
    rw [List.findSome?_cons] at h ⊢
    cases hwhole : rule.extent? g lineStart (a ++ c) with
    | some m =>
      rw [hwhole] at h
      cases h
      exact Or.inl (by rw [hsame n hwhole hna])
    | none =>
      rw [hwhole] at h
      rcases hnone hwhole with hpart | hpart <;> rw [hpart]
      · exact ih h
      · exact Or.inr rfl

/-- **The next lexeme of a part is that of the whole, or the whole part**, if that of the whole lies
within the part. -/
theorem extent_cut (g : Grammar) (lineStart : Bool) {a c : Text} (hne : a ≠ [])
    (hle : g.extent lineStart (a ++ c) ≤ a.length) :
    g.extent lineStart a = g.extent lineStart (a ++ c) ∨ g.extent lineStart a = a.length := by
  have hwhole := (g.findSome?_eq_extent lineStart (List.append_ne_nil_of_left_ne_nil hne c)).1
  have hpart := (g.findSome?_eq_extent lineStart hne).1
  rcases g.findSome?_cut lineStart Rule.all hwhole hle with h | h
  · exact Or.inl (Option.some.inj (hpart.symm.trans h))
  · exact Or.inr (Option.some.inj (hpart.symm.trans h))

/-- **The scan of a part and that of the whole begin alike.** Where they part, one lexeme at most is
left of the part, or what is left of it lies in one lexeme of the whole, which goes on behind it. -/
theorem exists_scan_append (g : Grammar) (pos : Nat) (lineStart : Bool) (a c : Text) :
    ∃ common rest rest', g.scan pos lineStart a = common ++ rest ∧
      g.scan pos lineStart (a ++ c) = common ++ rest' ∧
      (rest.length ≤ 1 ∨ ∃ m ∈ rest', (∀ l ∈ rest, m.start ≤ l.start) ∧
        pos + byteSize a < m.stop) := by
  induction hlength : a.length using Nat.strong_induction_on generalizing pos lineStart a with
  | _ length ih =>
    by_cases hne : a = []
    · subst hne
      exact ⟨[], _, _, rfl, rfl, Or.inl (by simp [scan])⟩
    have hpos := g.one_le_extent lineStart (a ++ c)
    by_cases hle : g.extent lineStart (a ++ c) ≤ a.length
    · rcases g.extent_cut lineStart hne hle with hsame | hall
      · obtain ⟨w, b, rfl, hw⟩ : ∃ w b, a = w ++ b ∧ w.length = g.extent lineStart (a ++ c) :=
          ⟨_, _, (List.take_append_drop _ a).symm, List.length_take_of_le hle⟩
        have hwne : w ≠ [] := List.length_pos_iff.1 (hw ▸ hpos)
        obtain ⟨common, rest, rest', hpart, hwhole, hrest⟩ := ih b.length (by
          rw [← hlength, List.length_append]
          omega) (pos + byteSize w) (w.getLast? == some '\n') b rfl
        refine ⟨⟨pos, w⟩ :: common, rest, rest', ?_, ?_, ?_⟩
        · rw [scan_of_extent hwne (hsame.trans hw.symm), hpart, List.cons_append]
        · rw [List.append_assoc] at hw ⊢
          rw [scan_of_extent hwne hw.symm, hwhole, List.cons_append]
        · rwa [byteSize_append, ← Nat.add_assoc]
      · have hscan := @scan_of_extent g lineStart a [] hne (by rwa [List.append_nil]) pos
        rw [List.append_nil, scan] at hscan
        exact ⟨[], _, _, rfl, rfl, Or.inl (by rw [hscan]; exact Nat.le_refl 1)⟩
    · -- the lexeme of the whole goes on behind the part
      have hbound := (g.findSome?_eq_extent lineStart (List.append_ne_nil_of_left_ne_nil hne c)).2
      rw [List.length_append] at hbound
      obtain ⟨d, e, rfl, hd⟩ : ∃ d e, c = d ++ e ∧
          a.length + d.length = g.extent lineStart (a ++ c) :=
        ⟨_, _, (List.take_append_drop (g.extent lineStart (a ++ c) - a.length) c).symm, by
          rw [List.length_take]
          omega⟩
      have hdne : d ≠ [] := by
        rintro rfl
        rw [List.length_nil] at hd
        omega
      rw [← List.append_assoc] at hd ⊢
      rw [scan_of_extent (List.append_ne_nil_of_left_ne_nil hne d)
        (by rw [← hd, List.length_append])]
      refine ⟨[], _, _, rfl, rfl, Or.inr ⟨_, List.mem_cons_self, fun l hl => ?_, ?_⟩⟩
      · exact (g.consecutive_scan pos lineStart a).start_ge hl
      · have := byteSize_pos hdne
        simp only [Lexeme.stop, Lexeme.size, byteSize_append]
        omega

/-- **Of the lexemes of a bounded scan but the last, those of the full scan are those that do not
lie in the lexeme that the end of the range cuts.** For any names, any text and any two positions of
it in their order, both scans return. -/
theorem lexemes_bounded (r : Registry) {text : Text} {start stop : Nat}
    (hstart : isBoundary text start = true) (hstop : isBoundary text stop = true)
    (hle : start ≤ stop) :
    ∃ bounded full, r.grammar.lexemes text start stop = .ok bounded ∧
      r.grammar.lexemes text start (byteSize text) = .ok full ∧
      ∀ l ∈ bounded.dropLast, l ∈ full ↔ ¬ ∃ m ∈ full, m.start ≤ l.start ∧ stop < m.stop := by
  obtain ⟨a, b, c, rfl, rfl, rfl⟩ := exists_middle hstart hstop hle
  have hlast : min (byteSize (a ++ b)) (byteSize (a ++ (b ++ c))) = byteSize (a ++ b) := by
    simp only [byteSize_append]
    omega
  refine ⟨_, _, r.grammar.lexemes_middle a b c hlast (Nat.min_eq_left hle),
    r.grammar.lexemes_append a (b ++ c), fun l hl => ?_⟩
  have hconsecutive := r.grammar.consecutive_scan (byteSize a) (a.getLast?.all (· == '\n')) (b ++ c)
  have hbefore : l.stop ≤ byteSize (a ++ b) := by
    have := (r.grammar.consecutive_scan (byteSize a) (a.getLast?.all (· == '\n')) b).stop_le
      (List.dropLast_subset _ hl)
    rwa [total_scan, ← byteSize_append] at this
  constructor
  · rintro hfull ⟨m, hm, hstart, hcut⟩
    have hstop := hconsecutive.stop_le_of_start_le (fun _ => size_pos_of_mem_scan) hfull hm hstart
    omega
  · intro hcut
    obtain ⟨common, rest, rest', hpart, hwhole, hrest⟩ :=
      r.grammar.exists_scan_append (byteSize a) (a.getLast?.all (· == '\n')) b c
    rw [hpart] at hl
    rw [hwhole] at hcut ⊢
    rw [← byteSize_append] at hrest
    rcases hrest with hone | ⟨m, hm, hfirst, hbehind⟩
    · rcases rest with _ | ⟨x, _ | ⟨y, rest⟩⟩
      · rw [List.append_nil] at hl
        exact List.mem_append_left _ (List.dropLast_subset _ hl)
      · rw [List.dropLast_concat] at hl
        exact List.mem_append_left _ hl
      · simp only [List.length_cons] at hone
        omega
    · rcases List.mem_append.1 (List.dropLast_subset _ hl) with hl | hl
      · exact List.mem_append_left _ hl
      · exact absurd ⟨m, List.mem_append_right _ hm, hfirst l hl, hbehind⟩ hcut

/-- A range that ends within an annotation, behind a letter of two bytes. -/
theorem lexemes_bounded_letter :
    isBoundary "é #a[0] b".toList 2 = true ∧ isBoundary "é #a[0] b".toList 6 = true ∧ 2 ≤ 6 ∧
      ∃ bounded full, (Registry.grammar {}).lexemes "é #a[0] b".toList 2 6 = .ok bounded ∧
        (Registry.grammar {}).lexemes "é #a[0] b".toList 2 10 = .ok full ∧
        bounded = [⟨2, " ".toList⟩, ⟨3, "#a".toList⟩, ⟨5, "[".toList⟩] ∧
        ⟨2, " ".toList⟩ ∈ full ∧ ⟨3, "#a[0]".toList⟩ ∈ full ∧ ⟨3, "#a".toList⟩ ∉ full := by
  have hstart : isBoundary "é #a[0] b".toList 2 = true := by decide
  have hstop : isBoundary "é #a[0] b".toList 6 = true := by decide
  obtain ⟨bounded, full, hbounded, hfull, hiff⟩ := lexemes_bounded {} hstart hstop (by decide)
  have hrun : ((Registry.grammar {}).lexemes "é #a[0] b".toList 2 6).toOption =
      some [⟨2, " ".toList⟩, ⟨3, "#a".toList⟩, ⟨5, "[".toList⟩] := by
    decide +kernel
  have hrun' : ((Registry.grammar {}).lexemes "é #a[0] b".toList 2 10).toOption =
      some [⟨2, " ".toList⟩, ⟨3, "#a[0]".toList⟩, ⟨8, " ".toList⟩, ⟨9, "b".toList⟩] := by
    decide +kernel
  have hsize : byteSize "é #a[0] b".toList = 10 := by decide
  rw [hsize] at hfull
  rw [hbounded] at hrun
  rw [hfull] at hrun'
  obtain rfl : bounded = _ := Option.some.inj hrun
  obtain rfl : full = _ := Option.some.inj hrun'
  refine ⟨hstart, hstop, by decide, _, _, hbounded, hfull, rfl, by decide, by decide, ?_⟩
  rw [hiff _ (by decide), not_not]
  exact ⟨⟨3, "#a[0]".toList⟩, by decide, by decide, by decide⟩

/-- The tag before a bracket that the end of the range leaves open is no lexeme of the full scan,
and it is not the last one of the bounded scan. -/
theorem lexemes_bounded_differs :
    ∃ bounded full, (Registry.grammar {}).lexemes "#a[0]".toList 0 4 = .ok bounded ∧
      (Registry.grammar {}).lexemes "#a[0]".toList 0 5 = .ok full ∧
      ¬ ∀ l ∈ bounded.dropLast, l ∈ full := by
  have hrun : ((Registry.grammar {}).lexemes "#a[0]".toList 0 4).toOption =
      some [⟨0, "#a".toList⟩, ⟨2, "[".toList⟩, ⟨3, "0".toList⟩] := by
    decide +kernel
  have hrun' : ((Registry.grammar {}).lexemes "#a[0]".toList 0 5).toOption =
      some [⟨0, "#a[0]".toList⟩] := by
    decide +kernel
  exact ⟨_, _, Fault.eq_ok_of_toOption hrun, Fault.eq_ok_of_toOption hrun', by decide⟩

end Grammar

end TemplateStyler
