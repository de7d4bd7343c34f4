import Mathlib.Data.List.Induction
import TemplateStyler.Proofs.Styler.Head

/-!
# Literals that are cut off

A pass sees a string only up to its end. Where a string in single or double quotes is given up by a
newline behind that end, the pass shows it in the style of its quote; everything else is shown as in
the whole text.

* `Trace.CutOff`: a literal, from its opening quote to the newline that cuts it off.
* `exists_opening`: an open string has an opening quote, and since then only its style.
  `exists_newline`: a string that is given up has a newline that ends it.
* `getElem?_head_of_cutOff`, `getElem?_head_of_not_cutOff`: **what a pass shows of each byte.**
-/

namespace TemplateStyler

open Text Lexeme

/-- The literal from one entry to another, a string in single or double quotes that ends with its
line. -/
def Trace.CutOff (t : Trace) (opening newline : Entry) : Prop :=
  ∃ before body after, t = before ++ opening :: (body ++ newline :: after) ∧
    (opening.lexeme.text = "'".toList ∨ opening.lexeme.text = "\"".toList) ∧
    opening.before.mode ≠ .string ∧ opening.after.mode = .string ∧
    (∀ e ∈ body, e.after.mode = .string) ∧
    Shape.isNewline newline.lexeme.text = true ∧ newline.after.mode ≠ .string

namespace Trace

/-! ### Bytes of a trace -/

theorem drop_colours_append (x y : Trace) :
    (colours (x ++ y)).drop (total (x.map Entry.lexeme)) = colours y := by
  induction x with
  | nil => simp
  | cons e x ih =>
    simp only [List.cons_append, colours, List.map_cons, total_cons]
    rw [← List.drop_drop, List.drop_left' (List.length_replicate ..), ih]

/-- Behind a part of a trace each byte has the style it has without that part. -/
theorem getElem?_colours_append (x y : Trace) (i : Nat) :
    (colours (x ++ y))[total (x.map Entry.lexeme) + i]? = (colours y)[i]? := by
  rw [← List.getElem?_drop, drop_colours_append]

theorem getElem?_colours_entry (before : Trace) (e : Entry) (rest : Trace) {i : Nat}
    (hle : total (before.map Entry.lexeme) ≤ i)
    (hlt : i < total (before.map Entry.lexeme) + e.lexeme.size) :
    (colours (before ++ e :: rest))[i]? = some (shown e rest) := by
  have hoffset : i = total (before.map Entry.lexeme) + (i - total (before.map Entry.lexeme)) := by
    omega
  rw [hoffset, getElem?_colours_append, colours,
    List.getElem?_append_left (by rw [List.length_replicate]; omega), List.getElem?_replicate,
    if_pos (by omega)]

/-- Each byte of a trace lies in one of its entries. -/
theorem exists_entry {t : Trace} {i : Nat} (hi : i < total (t.map Entry.lexeme)) :
    ∃ before e rest, t = before ++ e :: rest ∧ total (before.map Entry.lexeme) ≤ i ∧
      i < total (before.map Entry.lexeme) + e.lexeme.size := by
  induction t generalizing i with
  | nil => simp at hi
  | cons e t ih =>
    by_cases hlt : i < e.lexeme.size
    · exact ⟨[], e, t, rfl, by simp, by simpa using hlt⟩
    · rw [List.map_cons, total_cons] at hi
      obtain ⟨before, e', rest, rfl, hle, hlt'⟩ := ih (i := i - e.lexeme.size) (by omega)
      refine ⟨e :: before, e', rest, rfl, ?_, ?_⟩
      · rw [List.map_cons, total_cons]
        omega
      · rw [List.map_cons, total_cons]
        omega

/-- While a string is open it is not decided whether it is given up. -/
theorem givesUp_append_of_string {t : Trace} (h : ∀ e ∈ t, e.after.mode = .string) (rest : Trace) :
    givesUp (t ++ rest) = givesUp rest := by
  induction t with
  | nil => rfl
  | cons e t ih =>
    rw [List.cons_append, givesUp, if_pos (h e (by simp)), ih fun e' he' => h e' (by simp [he'])]

theorem givesUp_of_string {t : Trace} (h : ∀ e ∈ t, e.after.mode = .string) :
    t.givesUp = false := by
  rw [← List.append_nil t, givesUp_append_of_string h]
  rfl

/-- It is shown in its style, unless it is given up later. -/
theorem colours_append_of_string {t : Trace} {style : Style}
    (h : ∀ e ∈ t, e.after.mode = .string ∧ e.after.style = style) (rest : Trace) :
    (t ++ rest).colours =
      List.replicate (total (t.map Entry.lexeme))
        (if rest.givesUp then .unclosedString else style) ++ rest.colours := by
  induction t with
  | nil => rfl
  | cons e t ih =>
    obtain ⟨he, ht⟩ := List.forall_mem_cons.1 h
    have hgives := givesUp_append_of_string (fun e' he' => (ht e' he').1) rest
    have hshown : shown e (t ++ rest) = if rest.givesUp then .unclosedString else style := by
      rw [shown, hgives, he.1, he.2]
      simp
    rw [List.cons_append, colours, hshown, ih ht, List.map_cons, total_cons,
      ← List.append_assoc, List.replicate_append_replicate]

theorem colours_of_string {t : Trace} {style : Style}
    (h : ∀ e ∈ t, e.after.mode = .string ∧ e.after.style = style) :
    t.colours = List.replicate (total (t.map Entry.lexeme)) style := by
  have hcolours := colours_append_of_string h []
  rwa [List.append_nil, colours, List.append_nil] at hcolours

/-- Whether a string is given up is decided where it ends. -/
theorem givesUp_append_of_closed {x : Trace} (h : ∃ e ∈ x, e.after.mode ≠ .string) (y : Trace) :
    givesUp (x ++ y) = givesUp x := by
  induction x with
  | nil => simp at h
  | cons e x ih =>
    rw [List.cons_append, givesUp, givesUp]
    by_cases hmode : e.after.mode = .string
    · simp only [hmode, if_true]
      refine ih ?_
      obtain ⟨e', he', hne⟩ := h
      rcases List.mem_cons.1 he' with rfl | he'
      · exact absurd hmode hne
      · exact ⟨e', he', hne⟩
    · simp only [hmode, if_false]

end Trace

namespace Registry

variable {r : Registry}

/-- Parts of a trace are traces of parts of its lexemes. -/
theorem exists_of_entries_append {s : State} {ls : List Lexeme} {x y : Trace}
    (h : r.entries s ls = x ++ y) :
    ∃ ls1 ls2, ls = ls1 ++ ls2 ∧ x = r.entries s ls1 ∧ y = r.entries (r.after s ls1) ls2 := by
  have hmap : ls = x.map Entry.lexeme ++ y.map Entry.lexeme := by
    rw [← List.map_append, ← h, map_lexeme_entries]
  have hsplit := h
  rw [hmap, entries_append] at hsplit
  have hlength : (r.entries s (x.map Entry.lexeme)).length = x.length := by
    rw [← List.length_map Entry.lexeme, map_lexeme_entries, List.length_map]
  obtain ⟨hx, hy⟩ := List.append_inj hsplit hlength
  exact ⟨_, _, hmap, hx.symm, hy.symm⟩

theorem exists_of_entries_cons {s : State} {ls : List Lexeme} {e : Entry} {y : Trace}
    (h : r.entries s ls = e :: y) :
    ∃ l ls', ls = l :: ls' ∧ e = ⟨l, s, r.next l.text s⟩ ∧
      y = r.entries (r.next l.text s) ls' := by
  cases ls with
  | nil => cases h
  | cons l ls' =>
    rw [entries] at h
    obtain ⟨rfl, rfl⟩ := List.cons.inj h
    exact ⟨l, ls', rfl, rfl, rfl⟩

/-! ### Openings and ends of strings -/

/-- A lexeme after which a string is still open changes nothing. -/
theorem next_eq_self {s : State} (hs : s.Consistent) (hmode : s.mode = .string)
    {lexeme : List Char} (h : (r.next lexeme s).mode = .string) : r.next lexeme s = s := by
  have hprevious : s.previous ≠ .string := by
    rcases hs.previous hmode with h | h <;> rw [h] <;> decide
  rw [r.next_string hs hmode] at h ⊢
  split_ifs at h ⊢
  · exact absurd h hprevious
  · exact absurd h hprevious
  · rfl

/-- While a string stays open its state stays. -/
theorem after_of_string {s : State} (hs : s.Consistent) (hmode : s.mode = .string)
    {ls : List Lexeme} (h : ∀ e ∈ r.entries s ls, e.after.mode = .string) :
    r.after s ls = s ∧ ∀ e ∈ r.entries s ls, e.after = s := by
  induction ls with
  | nil => simp [entries]
  | cons l ls ih =>
    have hself : r.next l.text s = s :=
      next_eq_self hs hmode (h ⟨l, s, r.next l.text s⟩ List.mem_cons_self)
    rw [entries, hself] at h ⊢
    obtain ⟨hafter, hall⟩ := ih fun e he => h e (List.mem_cons_of_mem _ he)
    rw [after_cons, hself]
    exact ⟨hafter, List.forall_mem_cons.2 ⟨rfl, hall⟩⟩

/-- **An open string has an opening quote**, and since then only its style. -/
theorem exists_opening {s : State} (hs : s.Consistent) (hmode : s.mode ≠ .string)
    {ls : List Lexeme} (h : (r.after s ls).mode = .string) :
    ∃ ls1 l ls2, ls = ls1 ++ l :: ls2 ∧ (r.after s ls1).mode ≠ .string ∧
      Style.ofQuote? l.text = some (r.after s ls).style ∧
      ∀ e ∈ r.entries (r.after s ls1) (l :: ls2), e.after.mode = .string := by
  induction ls using List.reverseRecOn with
  | nil => exact absurd h hmode
  | append_singleton ls l ih =>
    have hconsistent := r.consistent_after hs ls
    rw [after_append, after_cons, after_nil] at h ⊢
    by_cases hopen : (r.after s ls).mode = .string
    · rw [next_eq_self hconsistent hopen h]
      obtain ⟨ls1, l', ls2, hls, hbefore, hquote, hbody⟩ := ih hopen
      refine ⟨ls1, l', ls2 ++ [l], by rw [hls]; simp, hbefore, hquote, fun e he => ?_⟩
      rw [← List.cons_append, entries_append] at he
      rcases List.mem_append.1 he with he | he
      · exact hbody e he
      · have hstate : r.after (r.after s ls1) (l' :: ls2) = r.after s ls := by
          rw [hls, after_append]
        rw [hstate] at he
        simp only [entries, List.mem_singleton] at he
        rw [he]
        exact h
    · refine ⟨ls, l, [], by simp, hopen, (r.quote_of_next hconsistent hopen h).1, fun e he => ?_⟩
      simp only [entries, List.mem_singleton] at he
      rw [he]
      exact h

/-- **A string that is given up has a newline that ends it.** -/
theorem exists_newline {s : State} (hs : s.Consistent) (hmode : s.mode = .string)
    {ls : List Lexeme} (h : Trace.givesUp (r.entries s ls) = true) :
    s.style.isSingleLine = true ∧ ∃ ls1 l ls2, ls = ls1 ++ l :: ls2 ∧
      (∀ e ∈ r.entries s ls1, e.after.mode = .string) ∧ Shape.isNewline l.text = true ∧
      (r.after s (ls1 ++ [l])).mode ≠ .string := by
  induction ls with
  | nil => cases h
  | cons l ls ih =>
    rw [entries, Trace.givesUp] at h
    by_cases hopen : (r.next l.text s).mode = .string
    · simp only [hopen, if_true] at h
      have hself := next_eq_self hs hmode hopen
      rw [hself] at h
      obtain ⟨hsingle, ls1, l', ls2, hls, hbody, hnewline, hend⟩ := ih h
      refine ⟨hsingle, l :: ls1, l', ls2, by rw [hls]; rfl, fun e he => ?_, hnewline, ?_⟩
      · rw [entries, hself] at he
        rcases List.mem_cons.1 he with rfl | he
        · exact hmode
        · exact hbody e he
      · rw [List.cons_append, after_cons, hself]
        exact hend
    · simp only [hopen, if_false, beq_iff_eq] at h
      have hquote := hs.quote hmode
      rw [r.next_string hs hmode] at h
      split_ifs at h with hnewline hclose
      · rw [Bool.and_eq_true] at hnewline
        exact ⟨hnewline.2, [], l, ls, rfl, by simp [entries], hnewline.1, hopen⟩
      · simp only at h
        rw [h] at hquote
        cases hquote
      · rw [h] at hquote
        cases hquote

/-! ### What a pass shows -/

/-- The quotes that open strings which end with their line. -/
theorem quote_of_isSingleLine {quote : List Char} {style : Style}
    (h : Style.ofQuote? quote = some style) (hsingle : style.isSingleLine = true) :
    quote = "'".toList ∨ quote = "\"".toList := by
  unfold Style.ofQuote? at h
  split_ifs at h with h1 h2 h3 h4
  · exact Or.inl h1
  · exact Or.inr h2
  · cases h
    cases hsingle
  · cases h
    cases hsingle

/-- **A literal that is cut off behind the end is shown in the style of its quote.** -/
theorem getElem?_head_of_cutOff {text : Text} {opening newline : Entry}
    (h : (r.course text).CutOff opening newline) {last pos : Nat}
    (hopening : opening.lexeme.start ≤ pos) (hpos : pos < last)
    (hnewline : last ≤ newline.lexeme.start) (hlast : last ≤ byteSize text) :
    (r.head text last).colours[pos]? = Style.ofQuote? opening.lexeme.text := by
  obtain ⟨before, body, after, htrace, -, hbefore, hafter, hbody, -, -⟩ := h
  obtain ⟨ls1, ls2, hls, rfl, hopen⟩ := exists_of_entries_append htrace
  obtain ⟨o, ls3, rfl, rfl, hrest⟩ := exists_of_entries_cons hopen.symm
  obtain ⟨lsb, lsn, rfl, rfl, hnew⟩ := exists_of_entries_append hrest.symm
  obtain ⟨n, lsa, rfl, rfl, rfl⟩ := exists_of_entries_cons hnew.symm
  have hconsecutive := Grammar.consecutive_scan r.grammar 0 true text
  rw [← Grammar.scanText, hls, consecutive_append] at hconsecutive
  obtain ⟨hfirst, hstart, hconsecutive⟩ := hconsecutive
  rw [consecutive_append] at hconsecutive
  obtain ⟨hsecond, hthird⟩ := hconsecutive
  simp only at hopening hnewline hbefore hafter ⊢
  -- the pass sees the opening quote and a part of the body
  have hfilter : (ls1 ++ o :: (lsb ++ n :: lsa)).filter (fun l => l.start < last) =
      ls1 ++ o :: lsb.filter fun l => l.start < last := by
    have ho : o.start < last := by omega
    rw [List.filter_append, hfirst.filter_of_lt (by omega),
      List.filter_cons_of_pos (by simpa using ho), List.filter_append,
      hthird.filter_of_le (hthird.1 ▸ hnewline), List.append_nil]
  have hs := r.consistent_after State.consistent_initial ls1
  have hquote := (r.quote_of_next hs hbefore hafter).1
  have hs' := r.consistent_next hs o.text
  have hstring : ∀ e ∈ (⟨o, r.after .initial ls1, r.next o.text (r.after .initial ls1)⟩ : Entry) ::
      r.entries (r.next o.text (r.after .initial ls1)) (lsb.filter fun l => l.start < last),
      e.after.mode = .string ∧ e.after.style = (r.next o.text (r.after .initial ls1)).style := by
    intro e he
    rcases List.mem_cons.1 he with rfl | he
    · exact ⟨hafter, rfl⟩
    · have he' := ((r.mem_entries_filter hsecond last).1 he).1
      exact ⟨hbody e he', congrArg State.style ((after_of_string hs' hafter hbody).2 e he')⟩
  have hcolours := Trace.colours_of_string hstring
  have hlength := le_length_colours_head (r := r) hlast
  rw [head, hls, hfilter, entries_append, entries] at hlength ⊢
  rw [Trace.length_colours, List.map_append, total_append, map_lexeme_entries] at hlength
  have hoffset : pos = total ((r.entries .initial ls1).map Entry.lexeme) + (pos - o.start) := by
    rw [map_lexeme_entries]
    omega
  rw [hquote, hoffset, Trace.getElem?_colours_append, hcolours, List.getElem?_replicate,
    if_pos (by omega)]

/-- A string that is open at an entry and given up behind it is cut off there. -/
theorem exists_cutOff {ls1 ls2 : List Lexeme} {l : Lexeme}
    (hmode : (r.after .initial (ls1 ++ [l])).mode = .string)
    (hgives : Trace.givesUp (r.entries (r.after .initial (ls1 ++ [l])) ls2) = true) :
    ∃ opening newline, Trace.CutOff (r.entries .initial (ls1 ++ l :: ls2)) opening newline ∧
      opening.lexeme ∈ ls1 ++ [l] ∧ newline ∈ r.entries (r.after .initial (ls1 ++ [l])) ls2 ∧
      newline.after.mode ≠ .string := by
  have hs := r.consistent_after State.consistent_initial (ls1 ++ [l])
  obtain ⟨lo1, o, lo2, hopening, hbefore, hquote, hbody⟩ :=
    exists_opening State.consistent_initial (by decide) hmode
  obtain ⟨hsingle, lr1, n, lr2, hnewline, hbody', hisNewline, hclosed⟩ :=
    exists_newline hs hmode hgives
  rw [entries] at hbody
  refine ⟨⟨o, r.after .initial lo1, r.next o.text (r.after .initial lo1)⟩,
    ⟨n, r.after (r.after .initial (ls1 ++ [l])) lr1,
      r.after (r.after .initial (ls1 ++ [l])) (lr1 ++ [n])⟩, ?_, ?_, ?_, hclosed⟩
  · refine ⟨r.entries .initial lo1,
      r.entries (r.next o.text (r.after .initial lo1)) lo2 ++
        r.entries (r.after .initial (ls1 ++ [l])) lr1,
      r.entries (r.after (r.after .initial (ls1 ++ [l])) (lr1 ++ [n])) lr2, ?_,
      quote_of_isSingleLine hquote hsingle, hbefore, hbody _ List.mem_cons_self, ?_, hisNewline,
      hclosed⟩
    · have hls : ls1 ++ l :: ls2 = (lo1 ++ o :: lo2) ++ (lr1 ++ n :: lr2) := by
        rw [← hopening, hnewline, List.append_assoc]
        rfl
      rw [hls, entries_append, ← hopening, hopening, entries_append, entries, entries_append]
      simp [entries]
    · intro e he
      rcases List.mem_append.1 he with he | he
      · exact hbody e (by simp [he])
      · exact hbody' e he
  · rw [hopening]
    simp
  · rw [hnewline]
    exact r.mem_entries _ lr1 n lr2

/-- A byte that is seen in an open string lies in a literal that is cut off, if the string is given
up behind it. -/
theorem exists_cutOff_around {text : Text} {before rest : Trace} {e : Entry} {pos : Nat}
    (hcourse : r.course text = before ++ e :: rest)
    (hle : total (before.map Entry.lexeme) ≤ pos)
    (hlt : pos < total (before.map Entry.lexeme) + e.lexeme.size) (hmode : e.after.mode = .string)
    (hgives : Trace.givesUp rest = true) :
    ∃ opening newline, (r.course text).CutOff opening newline ∧ opening.lexeme.start ≤ pos ∧
      pos < newline.lexeme.start ∧ newline ∈ rest ∧ newline.after.mode ≠ .string := by
  have hconsecutive := Grammar.consecutive_scan r.grammar 0 true text
  obtain ⟨lb, lx, hlb, rfl, hx⟩ := exists_of_entries_append hcourse
  obtain ⟨l, lr, rfl, rfl, hrest⟩ := exists_of_entries_cons hx.symm
  have hstate : r.next l.text (r.after .initial lb) = r.after .initial (lb ++ [l]) := by
    rw [after_append]
    rfl
  simp only at hmode hle hlt
  rw [hstate] at hmode hrest
  rw [hrest] at hgives
  obtain ⟨opening, newline, hcut, hopening, hnewline, hclosed⟩ := exists_cutOff hmode hgives
  rw [← hlb] at hcut
  rw [← Grammar.scanText, hlb, consecutive_append] at hconsecutive
  obtain ⟨hfirst, hstart, hsecond⟩ := hconsecutive
  rw [map_lexeme_entries] at hle hlt
  rw [Lexeme.stop] at hsecond
  have hbefore : opening.lexeme.start ≤ pos := by
    rcases List.mem_append.1 hopening with hmem | hmem
    · have := hfirst.stop_le hmem
      rw [Lexeme.stop] at this
      omega
    · rw [List.mem_singleton.1 hmem]
      omega
  have hbehind : pos < newline.lexeme.start := by
    have := hsecond.start_ge (r.lexeme_mem_of_mem_entries hnewline)
    omega
  exact ⟨opening, newline, hcut, hbefore, hbehind, hrest ▸ hnewline, hclosed⟩

/-- **Everything else is shown as in the whole text.** -/
theorem getElem?_head_of_not_cutOff {text : Text} {last pos : Nat} (hpos : pos < last)
    (hlast : last ≤ byteSize text)
    (h : ∀ opening newline, (r.course text).CutOff opening newline →
      opening.lexeme.start ≤ pos → pos < newline.lexeme.start → newline.lexeme.start < last) :
    (r.head text last).colours[pos]? = (r.colours text)[pos]? := by
  obtain ⟨ls', hls, hge, -⟩ :=
    (Grammar.consecutive_scan r.grammar 0 true text).exists_append_filter last
  have hlength := le_length_colours_head (r := r) hlast
  rw [Trace.length_colours] at hlength
  obtain ⟨before, e, rest, hhead, hle, hlt⟩ :=
    Trace.exists_entry (t := r.head text last) (i := pos) (by omega)
  obtain ⟨tail, htail⟩ : ∃ tail, tail = r.entries (r.after .initial
      ((r.grammar.scanText text).filter fun l => l.start < last)) ls' := ⟨_, rfl⟩
  have hcourse : r.course text = before ++ e :: (rest ++ tail) := by
    rw [course, Grammar.scanText, hls, entries_append, htail, ← Grammar.scanText, ← head, hhead,
      List.append_assoc, List.cons_append]
  rw [hhead, Registry.colours, hcourse, Trace.getElem?_colours_entry before e rest hle hlt,
    Trace.getElem?_colours_entry before e _ hle hlt, Option.some.injEq]
  by_cases hmode : e.after.mode = .string
  · suffices hgives : Trace.givesUp rest = Trace.givesUp (rest ++ tail) by
      rw [Trace.shown, Trace.shown, hgives]
    by_cases hclosed : ∃ e' ∈ rest, e'.after.mode ≠ .string
    · rw [Trace.givesUp_append_of_closed hclosed]
    · have hopen : ∀ e' ∈ rest, e'.after.mode = .string := by
        intro e' he'
        by_contra hne
        exact hclosed ⟨e', he', hne⟩
      rw [Trace.givesUp_of_string hopen, eq_comm, Bool.eq_false_iff]
      intro hgives
      -- the newline that gives the string up lies before the end, so the pass sees it
      obtain ⟨opening, newline, hcut, hbefore, hbehind, hnewline, hclosed'⟩ :=
        exists_cutOff_around hcourse hle hlt hmode hgives
      have hseen := h opening newline hcut hbefore hbehind
      rcases List.mem_append.1 hnewline with hmem | hmem
      · exact hclosed' (hopen newline hmem)
      · rw [htail] at hmem
        have := hge newline.lexeme (r.lexeme_mem_of_mem_entries hmem)
        omega
  · rw [Trace.shown, Trace.shown, if_neg (by simp [hmode]), if_neg (by simp [hmode])]

end Registry

end TemplateStyler
