import TemplateStyler.Setting.Basic
import TemplateStyler.Toml.Draft
import TemplateStyler.Toml.Moment
import TemplateStyler.Toml.Numeral
import TemplateStyler.Toml.Quoted

/-!
# Statements of TOML

A TOML text is a list of statements: headers that open a table, and names with values for the table
that is open.

* `Toml.value?` reads a value, `Toml.path?` a name.
* `Toml.statements?` reads a whole text.

Loops over the parts of a value count down a number of steps that is the length of the text, and
each part takes one character at least.
-/

namespace TemplateStyler.Toml

/-- How deep lists and tables may nest, and how many parts a name may have. -/
def depthBound : Nat := 79

/-- The text after blanks. -/
def skipBlanks (cs : List Char) : List Char := cs.dropWhile Text.isBlank

/-- The text after blanks, line ends and comments, each comment on a line that ends. The flag says
whether a comment is open. -/
def skipFiller : Bool → List Char → Option (List Char)
  | _, '\n' :: cs => skipFiller false cs
  | _, '\r' :: '\n' :: cs => skipFiller false cs
  | true, c :: cs => if isPlain c then skipFiller true cs else none
  | true, [] => none
  | false, ' ' :: cs => skipFiller false cs
  | false, '\t' :: cs => skipFiller false cs
  | false, '#' :: cs => skipFiller true cs
  | false, cs => some cs

/-- The text after the end of a line, which may have a comment before it. -/
def endLine? : List Char → Option (List Char)
  | [] => some []
  | '\n' :: cs => some cs
  | '\r' :: '\n' :: cs => some cs
  | '#' :: cs =>
    match cs.dropWhile isPlain with
    | [] => some []
    | '\n' :: cs => some cs
    | '\r' :: '\n' :: cs => some cs
    | _ => none
  | _ => none

/-! ### Names -/

/-- Characters of names without quotes. -/
def isBare (c : Char) : Bool := c.isAlphanum || c == '_' || c == '-'

/-- A part of a name. -/
def key? (cs : List Char) : Option (Text × List Char) :=
  match quoted? cs with
  | some read => some read
  | none =>
    let name := cs.takeWhile isBare
    if name.isEmpty then none else some (name, cs.dropWhile isBare)

/-- The parts of a name with points between them, and the text after blanks after it. -/
def parts? : Nat → List Char → Option (List Text × List Char)
  | 0, _ => none
  | n + 1, cs => do
    let (key, cs) ← key? (skipBlanks cs)
    match skipBlanks cs with
    | '.' :: cs =>
      let (keys, cs) ← parts? n cs
      return (key :: keys, cs)
    | cs => return ([key], cs)

/-- A name. -/
def path? (cs : List Char) : Option (List Text × List Char) := parts? depthBound cs

/-! ### Values -/

/-- A reader of a value. -/
abbrev ValueReader := List Char → Option (Setting × List Char)

/-- The items of a list up to its closing bracket. A comma may follow the last one. -/
def items? (value? : ValueReader) : Nat → List Char → Option (List Setting × List Char)
  | 0, _ => none
  | n + 1, cs => do
    match ← skipFiller false cs with
    | ']' :: cs => return ([], cs)
    | cs =>
      let (v, cs) ← value? cs
      match ← skipFiller false cs with
      | ',' :: cs =>
        let (vs, cs) ← items? value? n cs
        return (v :: vs, cs)
      | ']' :: cs => return ([v], cs)
      | _ => none

/-- A name, an equals sign and a value. -/
def pair? (value? : ValueReader) (cs : List Char) : Option ((List Text × Setting) × List Char) := do
  match ← path? cs with
  | (path, '=' :: cs) =>
    let (v, cs) ← value? (skipBlanks cs)
    return ((path, v), skipBlanks cs)
  | _ => none

/-- The pairs of a table on one line up to its closing brace. -/
def pairs? (value? : ValueReader) :
    Nat → List Char → Option (List (List Text × Setting) × List Char)
  | 0, _ => none
  | n + 1, cs => do
    let (p, cs) ← pair? value? cs
    match cs with
    | ',' :: cs =>
      let (ps, cs) ← pairs? value? n cs
      return (p :: ps, cs)
    | '\x7d' :: cs => return ([p], cs)
    | _ => none

/-- The table of pairs. -/
def tableOf? (pairs : List (List Text × Setting)) : Option Setting :=
  (pairs.foldlM (fun es p => Draft.put p.2 p.1 es) []).map fun es => .table (Draft.settings es)

/-- A date, a time or a number. -/
def numeral? (cs : List Char) : Option (Setting × List Char) :=
  match moment? cs, real? cs, whole? cs with
  | some (t, cs), _, _ => some (.text t, cs)
  | none, some (x, cs), _ => some (.real x, cs)
  | none, none, some (n, cs) => some (.whole n, cs)
  | none, none, none => none

/-- A value in which lists and tables nest at most a number of times. -/
def value? : Nat → ValueReader
  | _, 't' :: 'r' :: 'u' :: 'e' :: cs => some (.flag true, cs)
  | _, 'f' :: 'a' :: 'l' :: 's' :: 'e' :: cs => some (.flag false, cs)
  | levels, '[' :: cs =>
    match levels with
    | 0 => none
    | levels + 1 =>
      (items? (value? levels) (cs.length + 1) cs).map fun p => (.list p.1, p.2)
  | levels, '\x7b' :: cs =>
    match levels with
    | 0 => none
    | levels + 1 =>
      match skipBlanks cs with
      | '\x7d' :: cs => some (.table [], cs)
      | cs => do
        let (pairs, cs) ← pairs? (value? levels) (cs.length + 1) cs
        return (← tableOf? pairs, cs)
  | _, '"' :: cs => (anyQuoted? ('"' :: cs)).map fun p => (.text p.1, p.2)
  | _, '\'' :: cs => (anyQuoted? ('\'' :: cs)).map fun p => (.text p.1, p.2)
  | _, cs => numeral? cs

/-! ### Statements -/

/-- A statement. -/
inductive Statement where
  /-- The name of the table that is open from here on. -/
  | header (path : List Text)
  /-- The name of a list of tables that gets one more table, which is open from here on. -/
  | element (path : List Text)
  /-- A name in the open table, and its value. -/
  | pair (path : List Text) (v : Setting)
  deriving Repr, Inhabited

/-- A statement without the end of its line. -/
def statement? : List Char → Option (Statement × List Char)
  | '[' :: '[' :: cs => do
    match ← path? cs with
    | (path, ']' :: ']' :: cs) => return (.element path, skipBlanks cs)
    | _ => none
  | '[' :: cs => do
    match ← path? cs with
    | (path, ']' :: cs) => return (.header path, skipBlanks cs)
    | _ => none
  | cs => (pair? (value? depthBound) cs).map fun (p, cs) => (.pair p.1 p.2, cs)

/-- The statements of a text. -/
def statementsFrom? : Nat → List Char → Option (List Statement)
  | 0, _ => none
  | n + 1, cs => do
    match skipBlanks cs with
    | [] => return []
    | cs =>
      match endLine? cs with
      | some cs => statementsFrom? n cs
      | none =>
        let (s, cs) ← statement? cs
        return s :: (← statementsFrom? n (← endLine? cs))

/-- The statements of a text, which may start with a byte order mark. -/
def statements? (cs : List Char) : Option (List Statement) :=
  let cs := if cs.head? = some '\uFEFF' then cs.drop 1 else cs
  statementsFrom? (cs.length + 1) cs

end TemplateStyler.Toml
