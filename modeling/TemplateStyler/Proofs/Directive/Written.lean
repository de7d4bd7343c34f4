import TemplateStyler.Proofs.Directive.Checked
import TemplateStyler.Proofs.Directive.Tokens
import TemplateStyler.Proofs.Text.Ends

/-!
# Directives as they are written

The grammar of directives on tokens: `let`, names, `in` and intervals, names and intervals with
commas between them, and no interval empty. The reader goes through the tokens once, so that each of
its parts takes what the grammar allows there and leaves the rest.

* `Directive.Written`: the tokens that write a directive.
* `Directive.ofTokens_eq_ok_iff`: the reader accepts these tokens and no others.
* `Directive.parse_eq_ok_iff`: **a line is accepted if and only if its tokens write a directive**,
  and every such line is recognised as one that is meant to hold a directive.
-/

namespace TemplateStyler

open Text

namespace Directive

/-! ### The grammar -/

/-- An integer, perhaps with a sign. -/
inductive WrittenBound : List Token → Int → Prop
  | unsigned (n : Nat) : WrittenBound [.integer n] n
  | plus (n : Nat) : WrittenBound [.plus, .integer n] n
  | minus (n : Nat) : WrittenBound [.minus, .integer n] (-n)

/-- Two bounds with dots between them, the first not greater than the second. -/
inductive WrittenBounds : List Token → Int → Int → Prop
  | dots {xs ys : List Token} {a b : Int} (ha : WrittenBound xs a) (hb : WrittenBound ys b)
      (hle : a ≤ b) : WrittenBounds (xs ++ .dots :: ys) a b

/-- An interval, perhaps with the mark of a random sign. -/
inductive WrittenInterval : List Token → Interval → Prop
  | plain {ts : List Token} {a b : Int} (h : WrittenBounds ts a b) :
      WrittenInterval ts ⟨a, b, false⟩
  | randomSign {ts : List Token} {a b : Int} (h : WrittenBounds ts a b) :
      WrittenInterval (.randomSign :: ts) ⟨a, b, true⟩

/-- A name. -/
inductive WrittenName : List Token → Text → Prop
  | name (x : Text) : WrittenName [.name x] x

/-- One item or more with commas between them. -/
inductive Listed {α : Type} (Item : List Token → α → Prop) : List Token → List α → Prop
  | one {ts : List Token} {a : α} (h : Item ts a) : Listed Item ts [a]
  | more {ts us : List Token} {a : α} {as : List α} (h : Item ts a) (hmore : Listed Item us as) :
      Listed Item (ts ++ .comma :: us) (a :: as)

/-- The tokens that write a directive. -/
inductive Written : List Token → Directive → Prop
  | letIn {xs ys : List Token} {names : List Text} {ranges : List Interval}
      (hnames : Listed WrittenName xs names) (hranges : Listed WrittenInterval ys ranges) :
      Written (.letWord :: (xs ++ .inWord :: ys)) ⟨names, ranges⟩

/-! ### What the reader takes -/

/-- Tokens without their columns. -/
def tokens (ts : List Placed) : List Token := ts.map Placed.token

@[simp] theorem tokens_nil : tokens [] = [] := rfl

@[simp] theorem tokens_cons (t : Placed) (ts : List Placed) :
    tokens (t :: ts) = t.token :: tokens ts := rfl

theorem exists_of_tokens_cons {ts : List Placed} {t : Token} {us : List Token}
    (h : tokens ts = t :: us) :
    ∃ start stop rest, ts = ⟨t, start, stop⟩ :: rest ∧ tokens rest = us := by
  obtain ⟨p, rest, rfl, rfl, rfl⟩ := List.map_eq_cons_iff.1 h
  exact ⟨p.start, p.stop, rest, rfl, rfl⟩

variable {last : Nat} {ts rest : List Placed} {used more : List Token}

theorem expect_eq_ok_iff {token : Token} :
    expect last token ts = .ok rest ↔ ∃ t, t.token = token ∧ ts = t :: rest := by
  cases ts with
  | nil => simp [expect]
  | cons t ts =>
    rw [expect]
    split_ifs with ht
    · constructor
      · intro h
        exact ⟨t, ht, by rw [Except.ok.inj h]⟩
      · rintro ⟨u, -, hcons⟩
        rw [(List.cons.inj hcons).2]
    · simp only [List.cons.injEq, false_iff]
      rintro ⟨u, hu, rfl, -⟩
      exact ht hu

theorem writtenBound_of_bound {value : Int} {past : Nat}
    (h : bound last ts = .ok (value, past, rest)) :
    ∃ used, WrittenBound used value ∧ tokens ts = used ++ tokens rest := by
  unfold bound at h
  split at h <;> cases h
  · exact ⟨_, .unsigned _, rfl⟩
  · exact ⟨_, .minus _, rfl⟩
  · exact ⟨_, .plus _, rfl⟩

theorem bound_of_writtenBound (last : Nat) {value : Int} (h : WrittenBound used value)
    (hts : tokens ts = used ++ more) :
    ∃ past rest, bound last ts = .ok (value, past, rest) ∧ tokens rest = more := by
  cases h with
  | unsigned n =>
    obtain ⟨_, past, rest, rfl, hrest⟩ := exists_of_tokens_cons hts
    exact ⟨past, rest, rfl, hrest⟩
  | plus n =>
    obtain ⟨_, _, us, rfl, hus⟩ := exists_of_tokens_cons hts
    obtain ⟨_, past, rest, rfl, hrest⟩ := exists_of_tokens_cons hus
    exact ⟨past, rest, rfl, hrest⟩
  | minus n =>
    obtain ⟨_, _, us, rfl, hus⟩ := exists_of_tokens_cons hts
    obtain ⟨_, past, rest, rfl, hrest⟩ := exists_of_tokens_cons hus
    exact ⟨past, rest, rfl, hrest⟩

theorem writtenBounds_of_interval {sign : Bool} {column : Nat} {i : Interval}
    (h : interval last sign column ts = .ok (i, rest)) :
    ∃ used a b, WrittenBounds used a b ∧ i = ⟨a, b, sign⟩ ∧ tokens ts = used ++ tokens rest := by
  obtain ⟨⟨a, _, ts₁⟩, ha, hrest₁⟩ := Fault.bind_eq_ok_iff.1 h
  obtain ⟨ts₂, hdots, hrest₂⟩ := Fault.bind_eq_ok_iff.1 hrest₁
  obtain ⟨⟨b, past, ts₃⟩, hb, hrest₃⟩ := Fault.bind_eq_ok_iff.1 hrest₂
  obtain ⟨xs, hxs, htokens⟩ := writtenBound_of_bound ha
  obtain ⟨t, ht, rfl⟩ := expect_eq_ok_iff.1 hdots
  obtain ⟨ys, hys, htokens'⟩ := writtenBound_of_bound hb
  dsimp only at hrest₃
  split_ifs at hrest₃ with hle
  · cases hrest₃
  · cases hrest₃
    refine ⟨_, a, b, .dots hxs hys (Int.not_lt.1 hle), rfl, ?_⟩
    rw [htokens, tokens_cons, ht, htokens', List.append_assoc, List.cons_append]

theorem interval_of_writtenBounds (last : Nat) {a b : Int} (h : WrittenBounds used a b)
    (hts : tokens ts = used ++ more) (sign : Bool) (column : Nat) :
    ∃ rest, interval last sign column ts = .ok (⟨a, b, sign⟩, rest) ∧ tokens rest = more := by
  obtain ⟨ha, hb, hle⟩ := h
  rw [List.append_assoc] at hts
  obtain ⟨_, ts₁, hstart, hts₁⟩ := bound_of_writtenBound last ha hts
  obtain ⟨_, _, ts₂, rfl, hts₂⟩ := exists_of_tokens_cons hts₁
  obtain ⟨past, ts₃, hstop, hts₃⟩ := bound_of_writtenBound last hb hts₂
  refine ⟨ts₃, Fault.bind_eq_ok_iff.2 ⟨_, hstart, ?_⟩, hts₃⟩
  refine Fault.bind_eq_ok_iff.2 ⟨ts₂, expect_eq_ok_iff.2 ⟨_, rfl, rfl⟩, ?_⟩
  exact Fault.bind_eq_ok_iff.2 ⟨_, hstop, if_neg (Int.not_lt.2 hle)⟩

theorem writtenInterval_of_range {i : Interval} (h : range last ts = .ok (i, rest)) :
    ∃ used, WrittenInterval used i ∧ tokens ts = used ++ tokens rest := by
  unfold range at h
  split at h
  · obtain ⟨used, a, b, hused, rfl, htokens⟩ := writtenBounds_of_interval h
    exact ⟨_, .randomSign hused, by rw [tokens_cons, htokens]; rfl⟩
  · obtain ⟨used, a, b, hused, rfl, htokens⟩ := writtenBounds_of_interval h
    exact ⟨used, .plain hused, htokens⟩
  · cases h

/-- The mark of a random sign belongs to no bound. -/
theorem WrittenBounds.exists_cons {a b : Int} (h : WrittenBounds used a b) :
    ∃ t us, used = t :: us ∧ t ≠ .randomSign := by
  obtain ⟨ha, -, -⟩ := h
  cases ha <;> exact ⟨_, _, rfl, Token.noConfusion⟩

theorem range_of_writtenInterval (last : Nat) {i : Interval} (h : WrittenInterval used i)
    (hts : tokens ts = used ++ more) :
    ∃ rest, range last ts = .ok (i, rest) ∧ tokens rest = more := by
  cases h with
  | plain h =>
    obtain ⟨t, us, rfl, hsign⟩ := h.exists_cons
    obtain ⟨start, stop, ps, rfl, -⟩ := exists_of_tokens_cons hts
    obtain ⟨rest, hrest, htokens⟩ := interval_of_writtenBounds last h hts false start
    refine ⟨rest, ?_, htokens⟩
    unfold range
    split
    · next heq =>
      cases heq
      exact absurd rfl hsign
    · next heq =>
      cases heq
      exact hrest
    · next heq => cases heq
  | randomSign h =>
    obtain ⟨start, stop, ps, rfl, hps⟩ := exists_of_tokens_cons hts
    exact interval_of_writtenBounds last h hps true start

theorem listed_of_nameList {xs : List Text} (h : nameList last ts = .ok (xs, rest)) :
    ∃ used, Listed WrittenName used xs ∧ tokens ts = used ++ tokens rest := by
  fun_induction nameList last ts generalizing xs rest with
  | case1 x _ _ _ _ ts ih =>
    obtain ⟨⟨ys, rest⟩, hys, ⟨⟩⟩ := Fault.bind_eq_ok_iff.1 h
    obtain ⟨used, hused, htokens⟩ := ih hys
    exact ⟨_, .more (.name x) hused, by simp [htokens]⟩
  | case2 x _ _ ts =>
    cases h
    exact ⟨_, .one (.name x), rfl⟩
  | case3 => cases h

theorem nameList_of_listed (last : Nat) {xs : List Text} (h : Listed WrittenName used xs)
    (hts : tokens ts = used ++ more) (hmore : more.head? ≠ some .comma) :
    ∃ rest, nameList last ts = .ok (xs, rest) ∧ tokens rest = more := by
  induction h generalizing ts with
  | one h =>
    cases h with | name x => ?_
    obtain ⟨_, _, rest, rfl, rfl⟩ := exists_of_tokens_cons hts
    refine ⟨rest, ?_, rfl⟩
    -- A comma would lead the reader on to another name.
    unfold nameList
    split
    · next heq =>
      cases heq
      exact absurd rfl hmore
    · next heq =>
      cases heq
      rfl
    · next hname => exact absurd rfl (hname _ _ _ _)
  | more h hlisted ih =>
    cases h with | name x => ?_
    obtain ⟨_, _, us, rfl, hus⟩ := exists_of_tokens_cons hts
    obtain ⟨_, _, vs, rfl, hvs⟩ := exists_of_tokens_cons hus
    obtain ⟨rest, hrest, htokens⟩ := ih hvs
    exact ⟨rest, by rw [nameList, hrest]; rfl, htokens⟩

theorem listed_of_rangeList {ranges : List Interval} (h : rangeList last ts = .ok (ranges, rest)) :
    ∃ used, Listed WrittenInterval used ranges ∧ tokens ts = used ++ tokens rest := by
  fun_induction rangeList last ts generalizing ranges rest with
  | case1 => cases h
  | case2 ts i _ _ ps hrange ih =>
    obtain ⟨⟨is, rest⟩, his, ⟨⟩⟩ := Fault.map_eq_ok_iff.1 h
    obtain ⟨xs, hxs, htokens⟩ := writtenInterval_of_range hrange
    obtain ⟨used, hused, htokens'⟩ := ih his
    exact ⟨_, .more hxs hused, by simp [htokens, htokens']⟩
  | case3 ts i ps hcomma hrange =>
    cases h
    obtain ⟨xs, hxs, htokens⟩ := writtenInterval_of_range hrange
    exact ⟨xs, .one hxs, htokens⟩

theorem rangeList_of_listed (last : Nat) {ranges : List Interval}
    (h : Listed WrittenInterval used ranges)
    (hts : tokens ts = used ++ more) (hmore : more.head? ≠ some .comma) :
    ∃ rest, rangeList last ts = .ok (ranges, rest) ∧ tokens rest = more := by
  induction h generalizing ts with
  | one h =>
    obtain ⟨rest, hrange, rfl⟩ := range_of_writtenInterval last h hts
    refine ⟨rest, ?_, rfl⟩
    unfold rangeList
    split
    · next heq =>
      rw [hrange] at heq
      cases heq
    · next heq =>
      rw [hrange] at heq
      cases heq
      exact absurd rfl hmore
    · next heq =>
      rw [hrange] at heq
      cases heq
      rfl
  | more h hlisted ih =>
    rw [List.append_assoc] at hts
    obtain ⟨ps, hrange, htokens⟩ := range_of_writtenInterval last h hts
    obtain ⟨_, _, qs, rfl, hqs⟩ := exists_of_tokens_cons htokens
    obtain ⟨rest, hrest, htokens⟩ := ih hqs
    refine ⟨rest, ?_, htokens⟩
    unfold rangeList
    split
    · next heq =>
      rw [hrange] at heq
      cases heq
    · next heq =>
      rw [hrange] at heq
      cases heq
      rw [hrest]
      rfl
    · next hcomma heq =>
      rw [hrange] at heq
      cases heq
      exact absurd rfl (hcomma _ _ _)

/-- **The reader accepts the tokens that write a directive**, and no others. -/
theorem ofTokens_eq_ok_iff {d : Directive} :
    ofTokens last ts = .ok d ↔ Written (tokens ts) d := by
  constructor
  · intro h
    obtain ⟨ts₁, hlet, hrest₁⟩ := Fault.bind_eq_ok_iff.1 h
    obtain ⟨⟨names, ts₂⟩, hnames, hrest₂⟩ := Fault.bind_eq_ok_iff.1 hrest₁
    obtain ⟨ts₃, hin, hrest₃⟩ := Fault.bind_eq_ok_iff.1 hrest₂
    obtain ⟨⟨ranges, ts₄⟩, hranges, hrest₄⟩ := Fault.bind_eq_ok_iff.1 hrest₃
    obtain ⟨t, ht, rfl⟩ := expect_eq_ok_iff.1 hlet
    obtain ⟨xs, hxs, htokens⟩ := listed_of_nameList hnames
    obtain ⟨u, hu, rfl⟩ := expect_eq_ok_iff.1 hin
    obtain ⟨ys, hys, htokens'⟩ := listed_of_rangeList hranges
    dsimp only at hrest₄
    split_ifs at hrest₄ with hend
    · cases hrest₄
      rw [List.isEmpty_iff.1 hend, tokens_nil, List.append_nil] at htokens'
      rw [tokens_cons, ht, htokens, tokens_cons, hu, htokens']
      exact .letIn hxs hys
  · generalize hts : tokens ts = us
    rintro ⟨hxs, hys⟩
    obtain ⟨_, _, ts₁, rfl, hts₁⟩ := exists_of_tokens_cons hts
    obtain ⟨ts₂, hnames, hts₂⟩ := nameList_of_listed last hxs hts₁ (by simp)
    obtain ⟨_, _, ts₃, rfl, hts₃⟩ := exists_of_tokens_cons hts₂
    obtain ⟨ts₄, hranges, hts₄⟩ := rangeList_of_listed last hys
      (hts₃.trans (List.append_nil _).symm) (by simp)
    obtain rfl := List.map_eq_nil_iff.1 hts₄
    refine Fault.bind_eq_ok_iff.2 ⟨ts₁, expect_eq_ok_iff.2 ⟨_, rfl, rfl⟩, ?_⟩
    refine Fault.bind_eq_ok_iff.2 ⟨_, hnames, ?_⟩
    refine Fault.bind_eq_ok_iff.2 ⟨ts₃, expect_eq_ok_iff.2 ⟨_, rfl, rfl⟩, ?_⟩
    exact Fault.bind_eq_ok_iff.2 ⟨_, hranges, rfl⟩

/-! ### Lines -/

/-- Blanks stand before the first token and nothing else. -/
theorem exists_of_splits_cons {text : Text} {t : Token} {us : List Token}
    (h : Token.Splits text (t :: us)) :
    ∃ blanks word rest, text = blanks ++ (word ++ rest) ∧ (∀ c ∈ blanks, isBlank c = true) ∧
      Token.Longest t word rest ∧ Token.Splits rest us := by
  generalize hts : t :: us = ts at h
  induction h with
  | nil => cases hts
  | @blank c cs ts hc h ih =>
    obtain ⟨blanks, word, rest, rfl, hblanks, hword⟩ := ih hts
    exact ⟨c :: blanks, word, rest, rfl, List.forall_mem_cons.2 ⟨hc, hblanks⟩, hword⟩
  | @token t word rest ts hword h =>
    obtain ⟨rfl, rfl⟩ := List.cons.inj hts
    exact ⟨[], word, rest, rfl, List.forall_mem_nil _, hword, h⟩

theorem exists_of_listed_names {names : List Text} (h : Listed WrittenName used names) :
    ∃ x us, used = .name x :: us := by
  cases h with
  | one h =>
    cases h
    exact ⟨_, [], rfl⟩
  | more h =>
    cases h
    exact ⟨_, _, rfl⟩

/-- The word of directives and a letter right behind it would be one name. -/
theorem not_startsName_of_longest {c : Char} {rest : Text}
    (h : Token.Longest .letWord ['l', 'e', 't'] (c :: rest)) : Token.startsName c = false := by
  refine Bool.eq_false_iff.2 fun hc => ?_
  have hall : ∀ d ∈ ['e', 't', c], Token.continuesName d = true := by
    have hcontinues := Token.continuesName_of_startsName hc
    simp only [List.forall_mem_cons, hcontinues, List.not_mem_nil]
    exact ⟨by decide, by decide, trivial, fun _ => False.elim⟩
  have hname : Token.Spells (.name ['l', 'e', 't', c]) ['l', 'e', 't', c] :=
    .name (by decide) hall (by simp) (by simp)
  exact absurd (h.longest _ _ hname ⟨rest, rfl⟩) (Nat.not_succ_le_self 3)

/-- A blank parts the word of directives from the first name. -/
theorem exists_of_written {text : Text} {d : Directive} (hsplits : Token.Splits text used)
    (h : Written used d) (hfirst : ∀ c ∈ text.head?, isBlank c = false) :
    ∃ c rest, text = 'l' :: 'e' :: 't' :: c :: rest ∧ isBlank c = true := by
  cases h with | letIn hnames hranges => ?_
  obtain ⟨x, us, rfl⟩ := exists_of_listed_names hnames
  obtain ⟨blanks, word, rest, rfl, hblanks, hlet, hrest⟩ := exists_of_splits_cons hsplits
  obtain ⟨blanks', word', rest', rfl, hblanks', hname, -⟩ := exists_of_splits_cons hrest
  obtain rfl : word = ['l', 'e', 't'] := by
    cases hlet.spells
    rfl
  cases blanks with
  | cons b bs =>
    have hb := hfirst b rfl
    rw [hblanks b List.mem_cons_self] at hb
    cases hb
  | nil =>
    cases blanks' with
    | cons b bs => exact ⟨b, _, rfl, hblanks' b List.mem_cons_self⟩
    | nil =>
      cases hname.spells with | name hc => ?_
      rw [not_startsName_of_longest hlet] at hc
      cases hc

theorem drop_indentation (line : Text) :
    line.drop (indentation line).length = line.dropWhile isBlank := by
  have hcut : indentation line ++ line.dropWhile isBlank = line := List.takeWhile_append_dropWhile
  calc line.drop (indentation line).length =
        (indentation line ++ line.dropWhile isBlank).drop (indentation line).length := by rw [hcut]
    _ = line.dropWhile isBlank := List.drop_left

theorem parse_eq_ok_iff_splits {line : Text} {d : Directive} :
    parse line = .ok d ↔ ∃ ts, Token.Splits (trimEnd (line.dropWhile isBlank)) ts ∧
      (∀ t ∈ ts, t.Fits) ∧ Written ts d := by
  have hparse : parse line = .ok d ↔ ∃ placed,
      Token.scan (indentation line).length (trimEnd (line.dropWhile isBlank)) = .ok placed ∧
        Written (tokens placed) d := by
    simp only [parse, drop_indentation, Fault.bind_eq_ok_iff, ofTokens_eq_ok_iff]
  rw [hparse]
  constructor
  · rintro ⟨placed, hscan, hwritten⟩
    obtain ⟨hsplits, hfits⟩ := Token.exists_scan_iff.1 ⟨placed, hscan, rfl⟩
    exact ⟨_, hsplits, hfits, hwritten⟩
  · rintro ⟨ts, hsplits, hfits, hwritten⟩
    obtain ⟨placed, hscan, rfl⟩ := Token.exists_scan_iff.2 ⟨hsplits, hfits⟩
    exact ⟨placed, hscan, hwritten⟩

/-- What is read was meant to hold a directive. -/
theorem isDirectiveLine_of_parse {line : Text} {d : Directive} (h : parse line = .ok d) :
    isDirectiveLine line = true := by
  obtain ⟨ts, hsplits, -, hwritten⟩ := parse_eq_ok_iff_splits.1 h
  obtain ⟨trailing, hline, -⟩ := exists_dropEndWhile isSpace (line.dropWhile isBlank)
  rw [← trimEnd] at hline
  have hfirst : ∀ c ∈ (trimEnd (line.dropWhile isBlank)).head?, isBlank c = false := by
    intro c hc
    have hnot := List.head?_dropWhile_not isBlank line
    rw [hline, List.head?_append, Option.mem_def.1 hc] at hnot
    simpa using hnot
  obtain ⟨c, rest, htext, hc⟩ := exists_of_written hsplits hwritten hfirst
  rw [htext] at hline
  exact isDirectiveLine_iff.2 ⟨c, rest ++ trailing, hline, hc⟩

/-- **A line is accepted if and only if its tokens write a directive**, which then is what is read.
Such a line is recognised as one that is meant to hold a directive. -/
theorem parse_eq_ok_iff (line : Text) (d : Directive) :
    (parse line = .ok d ↔ ∃ ts, Token.Splits (trimEnd (line.dropWhile isBlank)) ts ∧
      (∀ t ∈ ts, t.Fits) ∧ Written ts d) ∧
    (parse line = .ok d → isDirectiveLine line = true) :=
  ⟨parse_eq_ok_iff_splits, isDirectiveLine_of_parse⟩

/-- A line with every kind of token, the two signs as one and as two, and a no-break space at its
end. -/
theorem parse_eq_ok_iff_signs :
    ∃ line d, line = "  let a,_b2 in +-1..9 ,\t-3..+4\u00a0".toList ∧ parse line = .ok d ∧
      d.ranges = [⟨1, 9, true⟩, ⟨-3, 4, false⟩] ∧ isDirectiveLine line = true ∧
      ∃ ts, Token.Splits "let a,_b2 in +-1..9 ,\t-3..+4".toList ts ∧ Written ts d := by
  have hparse : parse "  let a,_b2 in +-1..9 ,\t-3..+4\u00a0".toList =
      .ok ⟨["a".toList, "_b2".toList], [⟨1, 9, true⟩, ⟨-3, 4, false⟩]⟩ :=
    Fault.eq_ok_of_toOption (by decide +kernel)
  obtain ⟨hiff, hline⟩ := parse_eq_ok_iff "  let a,_b2 in +-1..9 ,\t-3..+4\u00a0".toList _
  obtain ⟨ts, hsplits, -, hwritten⟩ := hiff.1 hparse
  exact ⟨_, _, rfl, hparse, rfl, hline hparse, ts, hsplits, hwritten⟩

end Directive

end TemplateStyler
