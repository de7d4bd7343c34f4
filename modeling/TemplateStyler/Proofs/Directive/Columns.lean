import TemplateStyler.Proofs.Directive.Written
import TemplateStyler.Proofs.Text.Position

/-!
# Columns of defects

A defect shows columns, which count characters. A reader of the bytes of a line finds its tokens at
byte positions, and gets the columns by slices of the line, which fail anywhere but at a position.
Here both readings are the same: the slices never fail, and the columns stay on the line.

* `Token.scanBytes` and `Directive.parseBytes` read a line by its bytes, and slice it.
* `InOrder`: tokens at positions of a text, side by side. The tokens that are found by bytes are
  such, and moved to columns they are those that are found by columns (`scanned`).
* `Agree`: two results that differ only in where they show. What tokens form does not depend on
  where they are (`agree_ofTokens`), and a defect shows from one of them to a later one, or at the
  end.
* `parseBytes_eq_parse`: **reading bytes never fails, it gives what reading columns gives, and the
  columns of a defect lie on the line.**
-/

namespace TemplateStyler

open Text

/-! ### Reading bytes -/

/-- The tokens of a text that starts at a byte position, or between which positions the characters
lie that form no token. -/
def Token.scanBytes (pos : Nat) : List Char → Except (Nat × Nat) (List Placed)
  | [] => .ok []
  | c :: cs =>
    if isBlank c then scanBytes (pos + c.utf8Size) cs
    else match first c cs with
      | .ok (token, n) =>
        (scanBytes (pos + byteSize (c :: cs.take n)) (cs.drop n)).map
          (⟨token, pos, pos + byteSize (c :: cs.take n)⟩ :: ·)
      | .error n => .error (pos, pos + byteSize (c :: cs.take n))
termination_by cs => cs.length
decreasing_by all_goals (simp only [List.length_drop, List.length_cons]; omega)

namespace Directive

/-- The columns of what stands between two numbers in the body of a line: those of its characters,
or a single one if the numbers are not both positions. -/
def columns (line indent body : Text) (start stop : Nat) : Except Fault (Nat × Nat) := do
  let (before, _) ← cut line (byteSize indent + start)
  let width := match slice? body start stop with
    | some part => max 1 part.length
    | none => 1
  return (before.length, before.length + width)

/-- The directive that the body of a line holds, read by its bytes. -/
def parseBody (line indent body : Text) : Except Fault (Except Defect Directive) :=
  match Token.scanBytes 0 body with
  | .error (start, stop) => do
    let some part := slice? body start stop | throw .badPosition
    let (first, past) ← columns line indent body start stop
    return .error ⟨.badCharacters part, first, past⟩
  | .ok tokens =>
    match ofTokens (byteSize body) tokens with
    | .ok d => return .ok d
    | .error d => do
      let (first, past) ← columns line indent body d.start d.stop
      return .error ⟨d.cause, first, past⟩

/-- The directive that a line holds, read by its bytes. -/
def parseBytes (line : Text) : Except Fault (Except Defect Directive) := do
  let (indent, rest) ← cut line (byteSize (indentation line))
  parseBody line indent (trimEnd rest)

end Directive

/-! ### Columns of positions -/

/-- The column of a position of a body that stands behind a number of characters. -/
def columnAt (indent : Nat) (body : Text) (pos : Nat) : Nat := indent + (upTo body pos).length

theorem columnAt_append (indent : Nat) (a b : Text) :
    columnAt indent (a ++ b) (byteSize a) = indent + a.length := by
  rw [columnAt, upTo_append]

theorem columnAt_byteSize (indent : Nat) (body : Text) :
    columnAt indent body (byteSize body) = indent + body.length := by
  rw [columnAt, upTo_of_byteSize_le (Nat.le_refl _)]

theorem columnAt_middle (indent : Nat) (a c : Text) {b : Text} (hb : b ≠ []) :
    indent ≤ columnAt indent (a ++ (b ++ c)) (byteSize a) ∧
      columnAt indent (a ++ (b ++ c)) (byteSize a) <
        columnAt indent (a ++ (b ++ c)) (byteSize (a ++ b)) ∧
      columnAt indent (a ++ (b ++ c)) (byteSize (a ++ b)) ≤ indent + (a ++ (b ++ c)).length := by
  have hpos := List.length_pos_iff.2 hb
  rw [columnAt_append, ← List.append_assoc, columnAt_append]
  simp only [List.length_append]
  omega

/-! ### Tokens by bytes and by columns -/

/-- The token moved to other places. -/
def Placed.moved (f : Nat → Nat) (t : Placed) : Placed := ⟨t.token, f t.start, f t.stop⟩

/-- Tokens at positions of a text, side by side behind a position and none of them empty. -/
inductive InOrder (body : Text) : Nat → List Placed → Prop
  | nil (pos : Nat) : InOrder body pos []
  | cons {pos : Nat} {t : Placed} {ts : List Placed} (hpos : pos ≤ t.start)
      (hlt : t.start < t.stop) (hstart : isBoundary body t.start = true)
      (hstop : isBoundary body t.stop = true) (hrest : InOrder body t.stop ts) :
      InOrder body pos (t :: ts)

theorem InOrder.mono {body : Text} {pos pos' : Nat} {ts : List Placed} (h : InOrder body pos ts)
    (hle : pos' ≤ pos) : InOrder body pos' ts := by
  cases h with
  | nil => exact .nil pos'
  | cons hpos hlt hstart hstop hrest =>
    exact .cons (Nat.le_trans hle hpos) hlt hstart hstop hrest

theorem InOrder.suffix {body : Text} {pos : Nat} {ts us : List Placed} (h : InOrder body pos ts)
    (hsuffix : us <:+ ts) : InOrder body pos us := by
  induction h with
  | nil pos => rw [List.suffix_nil.1 hsuffix]; exact .nil pos
  | cons hpos hlt hstart hstop hrest ih =>
    rcases List.suffix_cons_iff.1 hsuffix with rfl | hsuffix
    · exact .cons hpos hlt hstart hstop hrest
    · exact (ih hsuffix).mono (Nat.le_trans hpos (Nat.le_of_lt hlt))

/-- Each token stops behind the position. -/
theorem InOrder.stop_of_mem {body : Text} {pos : Nat} {ts : List Placed} {u : Placed}
    (h : InOrder body pos ts) (hu : u ∈ ts) : pos < u.stop ∧ isBoundary body u.stop = true := by
  induction h with
  | nil => exact absurd hu List.not_mem_nil
  | cons hpos hlt hstart hstop hrest ih =>
    rcases List.mem_cons.1 hu with rfl | hu
    · exact ⟨Nat.lt_of_le_of_lt hpos hlt, hstop⟩
    · obtain ⟨hlt', hstop'⟩ := ih hu
      exact ⟨by omega, hstop'⟩

/-- From a token to a later one there is some part of the text. -/
theorem InOrder.exists_middle {body : Text} {pos : Nat} {t u : Placed} {ts : List Placed}
    (h : InOrder body pos (t :: ts)) (hu : u ∈ t :: ts) :
    ∃ a b c, body = a ++ (b ++ c) ∧ b ≠ [] ∧ byteSize a = t.start ∧
      byteSize (a ++ b) = u.stop := by
  cases h with
  | cons _ hlt hstart hstop hrest =>
    have hall : InOrder body t.start (t :: ts) := .cons (Nat.le_refl _) hlt hstart hstop hrest
    obtain ⟨hlt', hstop'⟩ := hall.stop_of_mem hu
    obtain ⟨a, b, c, hbody, ha, hab⟩ := Text.exists_middle hstart hstop' (Nat.le_of_lt hlt')
    refine ⟨a, b, c, hbody, ?_, ha, hab⟩
    rintro rfl
    rw [List.append_nil] at hab
    omega

namespace Token

/-- What the two scanners give: tokens and the same ones moved, or one part of the text as what is
bad. -/
inductive Scanned (f : Nat → Nat) (body : Text) (pos : Nat) :
    Except (Nat × Nat) (List Placed) → Except Defect (List Placed) → Prop
  | tokens {ts : List Placed} (h : InOrder body pos ts) :
      Scanned f body pos (.ok ts) (.ok (ts.map (Placed.moved f)))
  | bad {a part b : Text} (hbody : body = a ++ (part ++ b)) (hne : part ≠ []) :
      Scanned f body pos (.error (byteSize a, byteSize (a ++ part)))
        (.error ⟨.badCharacters part, f (byteSize a), f (byteSize (a ++ part))⟩)

theorem Scanned.mono {f : Nat → Nat} {body : Text} {pos pos' : Nat}
    {x : Except (Nat × Nat) (List Placed)} {y : Except Defect (List Placed)}
    (h : Scanned f body pos x y) (hle : pos' ≤ pos) : Scanned f body pos' x y := by
  cases h with
  | tokens h => exact .tokens (h.mono hle)
  | bad hbody hne => exact .bad hbody hne

/-- The number of characters that are found behind a first one. -/
def behind : Except Nat (Token × Nat) → Nat
  | .ok (_, n) => n
  | .error n => n

theorem behind_first_le (c : Char) (cs : Text) : behind (first c cs) ≤ cs.length := by
  have hlength : ∀ p : Char → Bool, (cs.takeWhile p).length ≤ cs.length := fun p =>
    (List.takeWhile_prefix p).length_le
  have hhead : ∀ d, cs.head? = some d → 1 ≤ cs.length := by
    intro d hd
    obtain ⟨rest, rfl⟩ := List.head?_eq_some_iff.1 hd
    exact Nat.le_add_left _ _
  unfold first
  split_ifs with hname hdigit
  · exact hlength _
  · dsimp only
    split_ifs <;> exact hlength _
  · split
    · exact Nat.zero_le _
    · next hsecond => exact hhead _ hsecond
    · next hsecond => exact hhead _ hsecond
    · exact Nat.zero_le _
    · exact Nat.zero_le _
    · exact Nat.zero_le _

/-- **The scanner of columns finds what the scanner of bytes finds**, at the columns of its
positions. -/
theorem scanned (indent : Nat) (a cs : Text) :
    Scanned (columnAt indent (a ++ cs)) (a ++ cs) (byteSize a) (scanBytes (byteSize a) cs)
      (scan (indent + a.length) cs) := by
  generalize hpos : byteSize a = pos
  fun_induction scanBytes pos cs generalizing a with
  | case1 => 
    rw [scan]
    exact .tokens (.nil _)
  | case2 pos c cs hblank ih =>
    have hnext := ih (a ++ [c]) (by simp [hpos])
    rw [List.append_assoc, List.singleton_append, List.length_append, List.length_singleton,
      ← Nat.add_assoc] at hnext
    rw [scan, if_pos hblank]
    exact hnext.mono (Nat.le_add_right _ _)
  | case3 pos c cs hblank token n hfirst ih =>
    have hn : n ≤ cs.length := by simpa only [hfirst, behind] using behind_first_le c cs
    have hcut : a ++ (c :: cs.take n) ++ cs.drop n = a ++ c :: cs := by
      rw [List.append_assoc, List.cons_append, List.take_append_drop]
    have hlength : (a ++ (c :: cs.take n)).length = a.length + 1 + n := by
      rw [List.length_append, List.length_cons, List.length_take_of_le hn]
      omega
    have hsize : byteSize (a ++ (c :: cs.take n)) = pos + byteSize (c :: cs.take n) := by
      rw [byteSize_append, hpos]
    have hnext := ih (a ++ (c :: cs.take n)) hsize
    subst hpos
    rw [hcut, hlength, ← hsize, ← Nat.add_assoc, ← Nat.add_assoc] at hnext
    rw [scan, if_neg hblank, hfirst, ← hsize]
    dsimp only
    have hstart : columnAt indent (a ++ c :: cs) (byteSize a) = indent + a.length :=
      columnAt_append _ _ _
    have hstop : columnAt indent (a ++ c :: cs) (byteSize (a ++ c :: cs.take n)) =
        indent + a.length + 1 + n := by
      rw [← hcut, columnAt_append, hlength]
      omega
    generalize scanBytes (byteSize (a ++ c :: cs.take n)) (cs.drop n) = x at hnext
    generalize scan (indent + a.length + 1 + n) (cs.drop n) = y at hnext
    cases hnext with
    | bad hbody hne => exact .bad hbody hne
    | @tokens ts h =>
      have hcons : InOrder (a ++ c :: cs) (byteSize a)
          (⟨token, byteSize a, byteSize (a ++ c :: cs.take n)⟩ :: ts) := by
        refine .cons (Nat.le_refl _) ?_ (isBoundary_append _ _) ?_ h
        · have := byteSize_pos (List.cons_ne_nil c (cs.take n))
          simp only [byteSize_append]
          omega
        · rw [← hcut]
          exact isBoundary_append _ _
      rw [← hstop, ← hstart]
      exact .tokens hcons
  | case4 pos c cs hblank n hfirst =>
    have hn : n ≤ cs.length := by simpa only [hfirst, behind] using behind_first_le c cs
    have hcut : a ++ ((c :: cs.take n) ++ cs.drop n) = a ++ c :: cs := by
      rw [List.cons_append, List.take_append_drop]
    have hbad : Scanned (columnAt indent (a ++ c :: cs)) (a ++ c :: cs) pos _ _ :=
      .bad hcut.symm (List.cons_ne_nil c (cs.take n))
    have hstop : columnAt indent (a ++ c :: cs) (byteSize (a ++ c :: cs.take n)) =
        indent + a.length + 1 + n := by
      rw [← hcut, ← List.append_assoc, columnAt_append, List.length_append, List.length_cons,
        List.length_take_of_le hn]
      omega
    rw [hstop, columnAt_append, byteSize_append, hpos] at hbad
    rw [scan, if_neg hblank, hfirst]
    exact hbad

end Token

/-! ### Reading tokens -/

/-- A defect that shows from one of the tokens to a later one, or at the end, and the same one
moved. -/
inductive Defect.Moved (f : Nat → Nat) (last : Nat) (ts : List Placed) : Defect → Defect → Prop
  | token {cause : Cause} {t u : Placed} {us : List Placed} (htail : t :: us <:+ ts)
      (hu : u ∈ t :: us) : Moved f last ts ⟨cause, t.start, u.stop⟩ ⟨cause, f t.start, f u.stop⟩
  | finish : Moved f last ts ⟨.unfinished, last, last + 1⟩ ⟨.unfinished, f last, f last + 1⟩

namespace Directive

/-- Two results that are related, or one defect of the tokens and the same one moved. -/
inductive Agree (f : Nat → Nat) (last : Nat) (ts : List Placed) {α β : Type} (R : α → β → Prop) :
    Except Defect α → Except Defect β → Prop
  | ok {a : α} {b : β} (h : R a b) : Agree f last ts R (.ok a) (.ok b)
  | error {d d' : Defect} (h : d.Moved f last ts d') : Agree f last ts R (.error d) (.error d')

/-- What is left of the tokens, and the same moved. -/
inductive Left (f : Nat → Nat) (ts : List Placed) : List Placed → List Placed → Prop
  | suffix {us : List Placed} (h : us <:+ ts) : Left f ts us (us.map (.moved f))

/-- One value with what is left of the tokens, and with the same moved. -/
inductive Same (f : Nat → Nat) (ts : List Placed) {α : Type} :
    α × List Placed → α × List Placed → Prop
  | value (a : α) {us : List Placed} (h : us <:+ ts) : Same f ts (a, us) (a, us.map (.moved f))

/-- One bound with the end of a token and what is left of the tokens, and with the same moved. -/
inductive SameBound (f : Nat → Nat) (ts : List Placed) :
    Int × Nat × List Placed → Int × Nat × List Placed → Prop
  | value (n : Int) {u : Placed} {us : List Placed} (hu : u ∈ ts) (h : us <:+ ts) :
      SameBound f ts (n, u.stop, us) (n, f u.stop, us.map (.moved f))

section

variable {f : Nat → Nat} {last : Nat} {ts us : List Placed} {α β α' β' : Type} {R : α → β → Prop}

theorem Agree.bind {S : α' → β' → Prop} {x : Except Defect α} {y : Except Defect β}
    {g : α → Except Defect α'} {k : β → Except Defect β'} (h : Agree f last ts R x y)
    (hnext : ∀ a b, R a b → Agree f last ts S (g a) (k b)) :
    Agree f last ts S (x >>= g) (y >>= k) := by
  cases h with
  | ok h => exact hnext _ _ h
  | error h => exact .error h

theorem Agree.map {S : α' → β' → Prop} {x : Except Defect α} {y : Except Defect β} {g : α → α'}
    {k : β → β'} (h : Agree f last ts R x y) (hnext : ∀ a b, R a b → S (g a) (k b)) :
    Agree f last ts S (x.map g) (y.map k) := by
  cases h with
  | ok h => exact .ok (hnext _ _ h)
  | error h => exact .error h

theorem Agree.mono {S : α → β → Prop} {x : Except Defect α} {y : Except Defect β}
    (h : Agree f last us R x y) (hsuffix : us <:+ ts) (hR : ∀ a b, R a b → S a b) :
    Agree f last ts S x y := by
  cases h with
  | ok h => exact .ok (hR _ _ h)
  | error h =>
    refine .error ?_
    cases h with
    | token htail hu => exact .token (htail.trans hsuffix) hu
    | finish => exact .finish

theorem Same.mono {p q : α × List Placed} (h : Same f us p q) (hsuffix : us <:+ ts) :
    Same f ts p q := by
  obtain ⟨a, h⟩ := h
  exact .value a (h.trans hsuffix)

end

variable (f : Nat → Nat) (last : Nat) {ts us : List Placed}

theorem moved_unexpected (h : us <:+ ts) :
    (unexpected last us).Moved f last ts (unexpected (f last) (us.map (.moved f))) := by
  cases us with
  | nil => exact .finish
  | cons t us => exact .token h List.mem_cons_self

theorem agree_expect (token : Token) (h : us <:+ ts) :
    Agree f last ts (Left f ts) (expect last token us)
      (expect (f last) token (us.map (.moved f))) := by
  have hdefect := moved_unexpected f last h
  cases us with
  | nil => exact .error hdefect
  | cons t us =>
    have hsame : (t.moved f).token = t.token := rfl
    rw [List.map_cons, expect, expect, hsame]
    split_ifs
    · exact .ok (.suffix ((List.suffix_cons _ _).trans h))
    · exact .error hdefect

/-- **A bound is read up to the end of one of the tokens.** -/
theorem agree_bound (h : us <:+ ts) :
    Agree f last ts (SameBound f ts) (bound last us) (bound (f last) (us.map (.moved f))) := by
  have hdefect := moved_unexpected f last h
  rcases us with _ | ⟨⟨t, start, stop⟩, us⟩
  · exact .error hdefect
  have hus : us <:+ ts := (List.suffix_cons _ _).trans h
  have hdefect' := moved_unexpected f last hus
  -- behind a sign there is a number, or the defect
  have hnumber : ∀ k n start stop rest, us = ⟨.integer n, start, stop⟩ :: rest →
      SameBound f ts (k, stop, rest) (k, f stop, rest.map (.moved f)) := by
    rintro k n start stop rest rfl
    exact .value k (hus.subset List.mem_cons_self) ((List.suffix_cons _ _).trans hus)
  cases t with
  | integer n => exact .ok (.value n (h.subset List.mem_cons_self) hus)
  | minus =>
    rcases us with _ | ⟨⟨t, start, stop⟩, us⟩
    · exact .error hdefect'
    cases t with
    | integer n => exact .ok (hnumber _ _ _ _ _ rfl)
    | _ => exact .error hdefect'
  | plus =>
    rcases us with _ | ⟨⟨t, start, stop⟩, us⟩
    · exact .error hdefect'
    cases t with
    | integer n => exact .ok (hnumber _ _ _ _ _ rfl)
    | _ => exact .error hdefect'
  | _ => exact .error hdefect

/-- An interval that is empty shows from the token that it starts with to the end of its second
bound. -/
theorem agree_interval (t : Placed) (sign : Bool) (h : us <:+ t :: ts) :
    Agree f last (t :: ts) (Same f (t :: ts)) (interval last sign t.start us)
      (interval (f last) sign (f t.start) (us.map (.moved f))) := by
  refine (agree_bound f last h).bind ?_
  rintro _ _ ⟨a, -, hus₁⟩
  refine (agree_expect f last .dots hus₁).bind ?_
  rintro _ _ ⟨hus₂⟩
  refine (agree_bound f last hus₂).bind ?_
  rintro _ _ ⟨b, hu, hus₃⟩
  dsimp only
  split_ifs with hlt
  · exact .error (.token (List.suffix_refl _) hu)
  · exact .ok (.value _ hus₃)

theorem agree_range (h : us <:+ ts) :
    Agree f last ts (Same f ts) (range last us) (range (f last) (us.map (.moved f))) := by
  rcases us with _ | ⟨⟨t, start, stop⟩, us⟩
  · exact .error .finish
  have hread : ∀ sign rest, rest <:+ ⟨t, start, stop⟩ :: us →
      Agree f last ts (Same f ts) (interval last sign start rest)
        (interval (f last) sign (f start) (rest.map (.moved f))) := fun sign rest hrest =>
    (agree_interval f last ⟨t, start, stop⟩ sign hrest).mono h fun p q hpq => hpq.mono h
  cases t with
  | randomSign => exact hread true us (List.suffix_cons _ _)
  | _ => exact hread false _ (List.suffix_refl _)

theorem agree_nameList (h : us <:+ ts) :
    Agree f last ts (Same f ts) (nameList last us) (nameList (f last) (us.map (.moved f))) := by
  have hdefect := moved_unexpected f last h
  fun_induction nameList last us with
  | case1 x _ _ _ _ us ih =>
    have hus := (List.suffix_cons _ _).trans ((List.suffix_cons _ _).trans h)
    refine (ih hus (moved_unexpected f last hus)).bind ?_
    rintro _ _ ⟨xs, hrest⟩
    exact .ok (.value _ hrest)
  | case2 x _ _ us hcomma =>
    have hus := (List.suffix_cons _ _).trans h
    rcases us with _ | ⟨⟨t, start, stop⟩, us⟩
    · exact .ok (.value _ hus)
    cases t with
    | comma => exact absurd rfl (hcomma _ _ _)
    | _ => exact .ok (.value _ hus)
  | case3 us hmore hname =>
    rcases us with _ | ⟨⟨t, start, stop⟩, us⟩
    · exact .error hdefect
    cases t with
    | name x => exact absurd rfl (hname _ _ _ _)
    | _ => exact .error hdefect

/-- Intervals are read one by one. -/
theorem rangeList_eq (last : Nat) (ts : List Placed) :
    rangeList last ts = range last ts >>= fun p => match p.2 with
      | ⟨.comma, _, _⟩ :: rest => (rangeList last rest).map fun q => (p.1 :: q.1, q.2)
      | rest => .ok ([p.1], rest) := by
  rw [rangeList]
  split
  · next heq => rw [heq]; rfl
  · next heq => rw [heq]; rfl
  · next hcomma heq =>
    rw [heq]
    dsimp only [Fault.ok_bind]
    split
    · exact absurd rfl (hcomma _ _ _)
    · rfl

theorem agree_rangeList (h : us <:+ ts) :
    Agree f last ts (Same f ts) (rangeList last us) (rangeList (f last) (us.map (.moved f))) := by
  have hrange := agree_range f last h
  rw [rangeList_eq (f last)]
  generalize range (f last) (us.map (.moved f)) = y at hrange
  fun_induction rangeList last us generalizing y with
  | case1 us d heq =>
    rw [heq] at hrange
    cases hrange with | error hdefect => exact .error hdefect
  | case2 us i _ _ ps heq ih =>
    rw [heq] at hrange
    obtain ⟨⟨_, hrest⟩⟩ := hrange
    have hps := (List.suffix_cons _ _).trans hrest
    refine Agree.map (R := Same f ts) ?_ ?_
    · rw [rangeList_eq (f last)]
      exact ih hps _ (agree_range f last hps)
    · rintro _ _ ⟨is, hmore⟩
      exact .value _ hmore
  | case3 us i ps hcomma heq =>
    rw [heq] at hrange
    obtain ⟨⟨_, hrest⟩⟩ := hrange
    rcases ps with _ | ⟨⟨t, start, stop⟩, ps⟩
    · exact .ok (.value _ hrest)
    cases t with
    | comma => exact absurd rfl (hcomma _ _ _)
    | _ => exact .ok (.value _ hrest)

/-- **What tokens form does not depend on where they are**, and a defect moves with them. -/
theorem agree_ofTokens (ts : List Placed) :
    Agree f last ts Eq (ofTokens last ts) (ofTokens (f last) (ts.map (.moved f))) := by
  refine (agree_expect f last .letWord (List.suffix_refl _)).bind ?_
  rintro _ _ ⟨hus₁⟩
  refine (agree_nameList f last hus₁).bind ?_
  rintro _ _ ⟨names, hus₂⟩
  refine (agree_expect f last .inWord hus₂).bind ?_
  rintro _ _ ⟨hus₃⟩
  refine (agree_rangeList f last hus₃).bind ?_
  rintro _ _ ⟨ranges, hus₄⟩
  dsimp only
  rw [List.isEmpty_map]
  split_ifs
  · exact .ok rfl
  · exact .error (moved_unexpected f last hus₄)

/-! ### Lines -/

/-- A line is its indentation, its body and the white space behind it. -/
theorem exists_body (line : Text) :
    ∃ behind, line = indentation line ++
      (trimEnd (line.drop (indentation line).length) ++ behind) := by
  obtain ⟨behind, hbehind, -⟩ := exists_dropEndWhile isSpace (line.drop (indentation line).length)
  refine ⟨behind, ?_⟩
  rw [trimEnd, ← hbehind, drop_indentation]
  exact List.takeWhile_append_dropWhile.symm

variable (indent behind : Text)

/-- Some part of the body shows at the columns of its characters. -/
theorem columns_middle {a b c : Text} (hb : b ≠ []) :
    columns (indent ++ (a ++ (b ++ c) ++ behind)) indent (a ++ (b ++ c)) (byteSize a)
        (byteSize (a ++ b)) =
      .ok (columnAt indent.length (a ++ (b ++ c)) (byteSize a),
        columnAt indent.length (a ++ (b ++ c)) (byteSize (a ++ b))) := by
  have hcut : cut (indent ++ (a ++ (b ++ c) ++ behind)) (byteSize indent + byteSize a) =
      .ok (indent ++ a, b ++ c ++ behind) :=
    cut_eq_ok_iff.2 ⟨by simp, by rw [byteSize_append]⟩
  have hwidth : max 1 b.length = b.length := Nat.max_eq_right (List.length_pos_iff.2 hb)
  have hstop : columnAt indent.length (a ++ (b ++ c)) (byteSize (a ++ b)) =
      indent.length + (a ++ b).length := by
    rw [← List.append_assoc, columnAt_append]
  rw [columns, hcut, slice?_append, columnAt_append, hstop]
  simp only [Fault.ok_bind, Fault.pure_eq_ok, hwidth, List.length_append, Nat.add_assoc]

/-- The end of the body shows at one column. -/
theorem columns_end (body : Text) :
    columns (indent ++ (body ++ behind)) indent body (byteSize body) (byteSize body + 1) =
      .ok (columnAt indent.length body (byteSize body),
        columnAt indent.length body (byteSize body) + 1) := by
  have hcut : cut (indent ++ (body ++ behind)) (byteSize indent + byteSize body) =
      .ok (indent ++ body, behind) :=
    cut_eq_ok_iff.2 ⟨by simp, by rw [byteSize_append]⟩
  have hnone : slice? body (byteSize body) (byteSize body + 1) = none := by
    rw [Option.eq_none_iff_forall_ne_some]
    intro part hpart
    obtain ⟨a, c, hbody, -, hstop⟩ := slice?_eq_some_iff.1 hpart
    have hsize := congrArg byteSize hbody
    simp only [byteSize_append] at hsize hstop
    omega
  rw [columns, hcut, hnone, columnAt_byteSize]
  simp only [Fault.ok_bind, Fault.pure_eq_ok, List.length_append]

/-- Where a defect of the tokens of a body shows, on the line and by columns. -/
theorem columns_of_moved {body : Text} {ts : List Placed} {d d' : Defect} (hts : InOrder body 0 ts)
    (h : d.Moved (columnAt indent.length body) (byteSize body) ts d') :
    columns (indent ++ (body ++ behind)) indent body d.start d.stop = .ok (d'.start, d'.stop) ∧
      d'.cause = d.cause ∧ indent.length ≤ d'.start ∧ d'.start < d'.stop ∧
      d'.stop ≤ indent.length + body.length + 1 := by
  cases h with
  | token htail hu =>
    obtain ⟨a, b, c, rfl, hb, ha, hab⟩ := (hts.suffix htail).exists_middle hu
    dsimp only
    rw [← ha, ← hab]
    obtain ⟨hle, hlt, hstop⟩ := columnAt_middle indent.length a c hb
    exact ⟨columns_middle indent behind hb, rfl, hle, hlt, Nat.le_succ_of_le hstop⟩
  | finish =>
    refine ⟨columns_end indent behind body, rfl, ?_⟩
    dsimp only
    rw [columnAt_byteSize]
    omega

/-- A body is read by its bytes without failing, as it is read by its columns. -/
theorem parseBody_eq (body : Text) :
    ∃ result, parseBody (indent ++ (body ++ behind)) indent body = .ok result ∧
      Token.scan indent.length body >>= ofTokens (indent.length + body.length) = result ∧
      ∀ d, result = .error d → indent.length ≤ d.start ∧ d.start < d.stop ∧
        d.stop ≤ indent.length + body.length + 1 := by
  have hscanned := Token.scanned indent.length [] body
  simp only [List.nil_append, byteSize_nil, List.length_nil, Nat.add_zero] at hscanned
  rw [parseBody]
  generalize Token.scanBytes 0 body = x at hscanned ⊢
  generalize Token.scan indent.length body = y at hscanned ⊢
  cases hscanned with
  | @bad a part b hparts hne =>
    subst hparts
    obtain ⟨hle, hlt, hstop⟩ := columnAt_middle indent.length a b hne
    refine ⟨_, ?_, rfl, ?_⟩
    · simp only [slice?_append, columns_middle indent behind hne, Fault.ok_bind, Fault.pure_eq_ok]
      rfl
    · rintro d ⟨⟩
      exact ⟨hle, hlt, Nat.le_succ_of_le hstop⟩
  | @tokens ts hts =>
    have hagree := agree_ofTokens (columnAt indent.length body) (byteSize body) ts
    rw [columnAt_byteSize] at hagree
    rw [Fault.ok_bind]
    dsimp only
    generalize ofTokens (byteSize body) ts = x at hagree ⊢
    generalize ofTokens (indent.length + body.length) (ts.map _) = y at hagree ⊢
    cases hagree with
    | ok h =>
      subst h
      exact ⟨_, rfl, rfl, fun d hd => by cases hd⟩
    | @error d d' hmoved =>
      obtain ⟨hcolumns, hcause, hline⟩ := columns_of_moved indent behind hts hmoved
      refine ⟨_, ?_, rfl, ?_⟩
      · simp only [hcolumns, Fault.ok_bind, Fault.pure_eq_ok, ← hcause]
      · rintro _ ⟨⟩
        exact hline

/-- **Reading the bytes of a line never fails, and gives what reading its columns gives.** Whatever
the line is, no slice begins or ends within a character. Where the line is no directive, its defect
shows behind the indentation, up to the end of the body or at the one column behind it. -/
theorem parseBytes_eq_parse (line : Text) :
    parseBytes line = .ok (parse line) ∧
      ∀ d, parse line = .error d → (indentation line).length ≤ d.start ∧ d.start < d.stop ∧
        d.stop ≤ (indentation line).length +
          (trimEnd (line.drop (indentation line).length)).length + 1 := by
  obtain ⟨behind, hline⟩ := exists_body line
  have hcut : cut line (byteSize (indentation line)) =
      .ok (indentation line, line.drop (indentation line).length) :=
    cut_eq_ok_iff.2 ⟨by rw [drop_indentation]; exact List.takeWhile_append_dropWhile.symm, rfl⟩
  obtain ⟨result, hbody, hparse, hresult⟩ := parseBody_eq (indentation line) behind
    (trimEnd (line.drop (indentation line).length))
  rw [← hline] at hbody
  have hsame : parse line = result := hparse
  rw [parseBytes, hcut, Fault.ok_bind, hsame]
  exact ⟨hbody, hresult⟩

/-- A letter of two bytes behind the indentation and the first word. -/
theorem parseBytes_eq_parse_letter :
    parse "\t let é in 1..2 ".toList = .error ⟨.badCharacters "é".toList, 6, 7⟩ ∧
      parseBytes "\t let é in 1..2 ".toList = .ok (.error ⟨.badCharacters "é".toList, 6, 7⟩) ∧
      2 ≤ 6 ∧ 6 < 7 ∧ 7 ≤ 2 + 13 + 1 := by
  have hparse : parse "\t let é in 1..2 ".toList =
      .error ⟨.badCharacters "é".toList, 6, 7⟩ := by
    decide +kernel
  obtain ⟨hbytes, hcolumns⟩ := parseBytes_eq_parse "\t let é in 1..2 ".toList
  rw [hparse] at hbytes
  exact ⟨hparse, hbytes, hcolumns _ hparse⟩

end Directive

end TemplateStyler
