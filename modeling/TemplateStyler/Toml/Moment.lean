import TemplateStyler.Text.Digit

/-!
# Dates and times of TOML

A date, a time of day, or both with or without an offset from universal time. What is read is given
back as a text in one fixed spelling.

* `Toml.moment?` reads a date, a time or both.
-/

namespace TemplateStyler.Toml

/-- Two digits for a number in a range, and the text after them. -/
def two? (least greatest : Nat) : List Char → Option (List Char × List Char)
  | a :: b :: cs =>
    match Text.decimal? [a, b] with
    | some n => if least ≤ n ∧ n ≤ greatest then some ([a, b], cs) else none
    | none => none
  | _ => none

/-- The number of days of a month. -/
def daysIn (year month : Nat) : Nat :=
  if month = 2 then
    if year % 4 = 0 ∧ (year % 100 ≠ 0 ∨ year % 400 = 0) then 29 else 28
  else if month = 4 ∨ month = 6 ∨ month = 9 ∨ month = 11 then 30
  else 31

/-- A date. -/
def date? : List Char → Option (List Char × List Char)
  | a :: b :: c :: d :: '-' :: cs => do
    let year ← Text.decimal? [a, b, c, d]
    match ← two? 1 12 cs with
    | (month, '-' :: cs) =>
      let (day, cs) ← two? 1 (daysIn year (Text.ofDigits 10 month)) cs
      return ([a, b, c, d, '-'] ++ month ++ '-' :: day, cs)
    | _ => none
  | _ => none

/-- A fraction of a second: nine digits count, and zeros at the end are dropped. -/
def fraction? : List Char → Option (List Char × List Char)
  | '.' :: cs =>
    let digits := cs.takeWhile Char.isDigit
    let kept := ((digits.take 9).reverse.dropWhile (· == '0')).reverse
    if digits.isEmpty then none
    else some (if kept.isEmpty then [] else '.' :: kept, cs.dropWhile Char.isDigit)
  | cs => some ([], cs)

/-- A time of day. The last second of a day may be a leap second. -/
def time? (cs : List Char) : Option (List Char × List Char) := do
  match ← two? 0 23 cs with
  | (hour, ':' :: cs) =>
    match ← two? 0 59 cs with
    | (minute, ':' :: cs) =>
      let (second, cs) ← two? 0 60 cs
      let (fraction, cs) ← fraction? cs
      return (hour ++ ':' :: minute ++ ':' :: second ++ fraction, cs)
    | _ => none
  | _ => none

/-- An offset from universal time. The offset zero is positive. -/
def offset? : List Char → Option (List Char × List Char)
  | c :: cs =>
    if c == 'Z' || c == 'z' then some (['Z'], cs)
    else if c == '+' || c == '-' then
      match two? 0 23 cs with
      | some (hour, ':' :: cs) =>
        (two? 0 59 cs).map fun (minute, cs) =>
          let sign := if hour ++ minute = ['0', '0', '0', '0'] then '+' else c
          (sign :: hour ++ ':' :: minute, cs)
      | _ => none
    else some ([], c :: cs)
  | [] => some ([], [])

/-- A date, a time or both. A blank may stand between date and time. -/
def moment? (cs : List Char) : Option (List Char × List Char) :=
  match date? cs with
  | none => time? cs
  | some (date, rest) =>
    match rest with
    | c :: after =>
      if c == 'T' || c == 't' || c == ' ' then
        match time? after with
        | some (time, after) =>
          (offset? after).map fun (offset, after) => (date ++ 'T' :: time ++ offset, after)
        | none => some (date, rest)
      else some (date, rest)
    | [] => some (date, [])

end TemplateStyler.Toml
