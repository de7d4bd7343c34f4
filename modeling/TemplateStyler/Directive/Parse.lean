import TemplateStyler.Directive.Basic

/-!
# Reading directives

A line is cut into tokens, which are then read from left to right. The first thing that cannot be
part of a directive is the defect of the line; characters that form no token come before all else.

* `Token.scan` cuts a text into tokens with their columns.
* `Directive.parse` reads a line. Each token decides alone how the reading goes on, so that a defect
  is always at the first token that no directive has in its place.
-/

namespace TemplateStyler

/-- A token from one column to another. -/
structure Placed where
  token : Token
  start : Nat
  stop : Nat
  deriving DecidableEq, Repr, Inhabited

namespace Token

/-- Whether a character can be the first of a name. -/
def startsName (c : Char) : Bool := c.isAlpha || c == '_'

/-- Whether a character can be a later one of a name. -/
def continuesName (c : Char) : Bool := c.isAlphanum || c == '_'

/-- The number that decimal digits write. -/
def value (digits : List Char) : Nat := digits.foldl (fun n c => 10 * n + (c.toNat - '0'.toNat)) 0

/-- The keyword or the name that a word is. -/
def ofWord (word : List Char) : Token :=
  if word = "let".toList then .letWord else if word = "in".toList then .inWord else .name word

/-- The token that starts with a character, and how many of the characters after it belong to it;
the number alone where they form no token. -/
def first (c : Char) (cs : List Char) : Except Nat (Token × Nat) :=
  if startsName c then
    let rest := cs.takeWhile continuesName
    .ok (ofWord (c :: rest), rest.length)
  else if c.isDigit then
    let rest := cs.takeWhile Char.isDigit
    let n := value (c :: rest)
    if n < Size.signedBound then .ok (.integer n, rest.length) else .error rest.length
  else match c, cs.head? with
    | ',', _ => .ok (.comma, 0)
    | '.', some '.' => .ok (.dots, 1)
    | '+', some '-' => .ok (.randomSign, 1)
    | '+', _ => .ok (.plus, 0)
    | '-', _ => .ok (.minus, 0)
    | _, _ => .error 0

/-- The tokens of a text that starts at a column. Blanks separate tokens and are skipped. -/
def scan (column : Nat) : List Char → Except Defect (List Placed)
  | [] => .ok []
  | c :: cs =>
    if Text.isBlank c then scan (column + 1) cs
    else match first c cs with
      | .ok (token, n) =>
        (scan (column + 1 + n) (cs.drop n)).map (⟨token, column, column + 1 + n⟩ :: ·)
      | .error n => .error ⟨.badCharacters (c :: cs.take n), column, column + 1 + n⟩
termination_by cs => cs.length
decreasing_by all_goals (simp only [List.length_drop, List.length_cons]; omega)

end Token

namespace Directive

variable (last : Nat)

/-- The defect of tokens that cannot go on as they do; the column past the line stands for its end.
-/
def unexpected : List Placed → Defect
  | t :: _ => ⟨.unexpected t.token, t.start, t.stop⟩
  | [] => ⟨.unfinished, last, last + 1⟩

/-- One token of a kind, and the tokens after it. -/
def expect (token : Token) : List Placed → Except Defect (List Placed)
  | t :: ts => if t.token = token then .ok ts else .error (unexpected last (t :: ts))
  | [] => .error (unexpected last [])

/-- One name or more with commas between them, and the tokens after them. -/
def nameList : List Placed → Except Defect (List Text × List Placed)
  | ⟨.name x, _, _⟩ :: ⟨.comma, _, _⟩ :: ts => do
    let (xs, rest) ← nameList ts
    return (x :: xs, rest)
  | ⟨.name x, _, _⟩ :: ts => .ok ([x], ts)
  | ts => .error (unexpected last ts)

/-- A bound with its sign, the column past it, and the tokens after it. -/
def bound : List Placed → Except Defect (Int × Nat × List Placed)
  | ⟨.integer n, _, stop⟩ :: ts => .ok (n, stop, ts)
  | ⟨.minus, _, _⟩ :: ⟨.integer n, _, stop⟩ :: ts => .ok (-n, stop, ts)
  | ⟨.plus, _, _⟩ :: ⟨.integer n, _, stop⟩ :: ts => .ok (n, stop, ts)
  | ⟨.minus, _, _⟩ :: ts => .error (unexpected last ts)
  | ⟨.plus, _, _⟩ :: ts => .error (unexpected last ts)
  | ts => .error (unexpected last ts)

/-- Two bounds with dots between them, and the tokens after them. The interval that they enclose
must not be empty. -/
def interval (randomSign : Bool) (column : Nat) (ts : List Placed) :
    Except Defect (Interval × List Placed) := do
  let (start, _, ts) ← bound last ts
  let ts ← expect last .dots ts
  let (stop, past, ts) ← bound last ts
  if stop < start then throw ⟨.emptyInterval start stop, column, past⟩
  return (⟨start, stop, randomSign⟩, ts)

/-- An interval, perhaps with the mark of a random sign, and the tokens after it. -/
def range : List Placed → Except Defect (Interval × List Placed)
  | ⟨.randomSign, column, _⟩ :: ts => interval last true column ts
  | t :: ts => interval last false t.start (t :: ts)
  | [] => .error (unexpected last [])

theorem length_lt_of_bound {ts rest : List Placed} {value : Int} {stop : Nat}
    (h : bound last ts = .ok (value, stop, rest)) : rest.length < ts.length := by
  unfold bound at h
  split at h <;> simp only [Except.ok.injEq, Prod.mk.injEq, reduceCtorEq] at h
  all_goals
    obtain ⟨-, -, rfl⟩ := h
    simp only [List.length_cons]
    omega

theorem length_lt_of_expect {token : Token} {ts rest : List Placed}
    (h : expect last token ts = .ok rest) : rest.length < ts.length := by
  unfold expect at h
  split at h
  · split at h <;> simp_all
  · simp at h

theorem length_lt_of_interval {randomSign : Bool} {column : Nat} {ts rest : List Placed}
    {i : Interval} (h : interval last randomSign column ts = .ok (i, rest)) :
    rest.length < ts.length := by
  unfold interval at h
  cases h₁ : bound last ts with
  | error => simp [h₁, bind, Except.bind] at h
  | ok a =>
    obtain ⟨start, p, ts₁⟩ := a
    have l₁ := length_lt_of_bound last h₁
    cases h₂ : expect last .dots ts₁ with
    | error => simp [h₁, h₂, bind, Except.bind] at h
    | ok ts₂ =>
      have l₂ := length_lt_of_expect last h₂
      cases h₃ : bound last ts₂ with
      | error => simp [h₁, h₂, h₃, bind, Except.bind] at h
      | ok b =>
        obtain ⟨stop, past, ts₃⟩ := b
        have l₃ := length_lt_of_bound last h₃
        simp only [h₁, h₂, h₃, bind, Except.bind] at h
        split at h
        · simp [throw, throwThe, MonadExceptOf.throw] at h
        · simp only [pure, Except.pure, Except.ok.injEq, Prod.mk.injEq] at h
          obtain ⟨_, rfl⟩ := h
          omega

theorem length_lt_of_range {ts rest : List Placed} {i : Interval}
    (h : range last ts = .ok (i, rest)) : rest.length < ts.length := by
  unfold range at h
  split at h
  · have := length_lt_of_interval last h
    simp only [List.length_cons]
    omega
  · exact length_lt_of_interval last h
  · simp at h

/-- One interval or more with commas between them, and the tokens after them. -/
def rangeList (ts : List Placed) : Except Defect (List Interval × List Placed) :=
  match _h : range last ts with
  | .error defect => .error defect
  | .ok (i, ⟨.comma, _, _⟩ :: rest) => (rangeList rest).map fun p => (i :: p.1, p.2)
  | .ok (i, rest) => .ok ([i], rest)
termination_by ts.length
decreasing_by
  have := length_lt_of_range last _h
  simp only [List.length_cons] at this
  omega

/-- The directive that tokens form. -/
def ofTokens (ts : List Placed) : Except Defect Directive := do
  let ts ← expect last .letWord ts
  let (names, ts) ← nameList last ts
  let ts ← expect last .inWord ts
  let (ranges, ts) ← rangeList last ts
  if ts.isEmpty then return ⟨names, ranges⟩ else throw (unexpected last ts)

/-- The directive that a line holds, after its indentation and up to trailing white space. -/
def parse (line : List Char) : Except Defect Directive := do
  let indent := (indentation line).length
  let body := Text.trimEnd (line.drop indent)
  ofTokens (indent + body.length) (← Token.scan indent body)

/-- A line as a checker of scripts may see it, and what is wrong with it: a directive becomes an
assignment, a malformed one a statement that does nothing, and any other line stays. -/
def rewriteForChecker (line : List Char) : List Char × Option Defect :=
  if isDirectiveLine line then
    match parse line with
    | .ok d => (indentation line ++ d.assignment, none)
    | .error defect => (indentation line ++ "pass".toList, some defect)
  else (line, none)

end Directive

end TemplateStyler
