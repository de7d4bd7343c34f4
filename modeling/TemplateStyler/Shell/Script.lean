import TemplateStyler.Shell.Token

/-!
# Scripts of the shell

A script is a sequence of pipelines, each run always, or only if the one before ended well or badly.
A pipeline is a sequence of commands, the output of one being the input of the next. A command is
words with redirections, or is put together from scripts.

* `Shell.Script` is the type of scripts, `Shell.Script.read` reads one.
-/

namespace TemplateStyler.Shell

/-- Where one of the streams of a command goes or comes from. -/
inductive Target where
  | stream (number : Nat)
  | closed
  | file (name : Word)
  deriving DecidableEq, Repr, Inhabited

/-- A command that is words: these, and where its streams go, by their numbers. -/
structure Simple where
  words : List Word := []
  targets : List (Nat × Target) := []
  deriving DecidableEq, Repr, Inhabited

/-- How a command is put together from scripts. -/
inductive Form where
  /-- One script, in the shell itself. -/
  | group
  /-- One script, in a shell of its own. -/
  | apart
  /-- One script, ending well where it ends badly. -/
  | negated
  /-- Tests, each with the script for it, and perhaps a script where none holds. -/
  | choice
  /-- A test and a script that runs as long as the test has an outcome, with the status to end with.
  -/
  | loop (outcome : Bool) (status : Nat)
  /-- One script for each of several words, or for each argument. -/
  | each (name : Octets) (words : Option (List Word))
  deriving DecidableEq, Repr, Inhabited

/-- A command. -/
inductive Command where
  | simple (s : Simple)
  | compound (form : Form) (bodies : List (List (Condition × List Command)))
    (targets : List (Nat × Target))
  deriving Repr, Inhabited

/-- Pipelines, each with the condition to run. -/
abbrev Script := List (Condition × List Command)

/-! ### Reading -/

/-- The complaint about tokens that cannot go on as they do. -/
def unexpected (expected : Option String) : List Token → Malformed
  | t :: _ => .unexpected t.shown expected
  | [] => .unexpected "end of file" expected

/-- The reserved word that tokens start with. -/
def keyword? : List Token → Option String
  | .word w :: _ => (literal? w).filter reserved.contains
  | _ => none

/-- The tokens after a reserved word. -/
def expect (text : String) (ts : List Token) : Except Malformed (List Token) :=
  if keyword? ts = some text then .ok (ts.drop 1) else .error (unexpected (some text) ts)

/-- The tokens after newlines. -/
def skipNewlines (ts : List Token) : List Token := ts.dropWhile (· == .next .always "newline")

/-- Whether a script ends before tokens. -/
def endsScript (ts : List Token) : Bool :=
  ts.isEmpty || ts.head? == some .closing ||
    ((keyword? ts).map ["then", "elif", "else", "fi", "do", "done", "\x7d"].contains).getD false

/-- What a redirection names. -/
def target (toStream : Bool) (w : Word) : Except Malformed Target :=
  if toStream then
    match (literal? w).map String.toList with
    | some ['-'] => .ok .closed
    | some [c] => match Text.digit? c with
      | some n => .ok (.stream n)
      | none => .error .badStream
    | _ => .error .badStream
  else .ok (.file w)

/-- A command of words, after some of its words and redirections. -/
def simple (s : Simple) : List Token → Except Malformed (Simple × List Token)
  | .word w :: ts => simple { s with words := s.words ++ [w] } ts
  | .redirect stream toStream :: .word w :: ts => do
    simple { s with targets := s.targets ++ [(stream, ← target toStream w)] } ts
  | .redirect _ _ :: ts => .error (unexpected none ts)
  | ts => .ok (s, ts)

/-- The words at the start of tokens, and the tokens after them. -/
def wordList : List Token → List Word × List Token
  | .word w :: ts => (w :: (wordList ts).1, (wordList ts).2)
  | ts => ([], ts)

mutual

/-- A script up to what ends it. The condition holds for its first pipeline, and the number bounds
the steps. -/
def script : Nat → Condition → List Token → Except Malformed (Script × List Token)
  | 0, _, ts => .error (unexpected none ts)
  | n + 1, condition, ts => do
    let ts := skipNewlines ts
    if endsScript ts then
      if condition = .always then return ([], ts) else throw (unexpected none ts)
    let (p, ts) ← pipeline n ts
    match ts with
    | .next next _ :: ts => do
      let (rest, ts) ← script n next ts
      return ((condition, p) :: rest, ts)
    | ts => return ([(condition, p)], ts)

/-- A script that is not empty. -/
def body : Nat → List Token → Except Malformed (Script × List Token)
  | 0, ts => .error (unexpected none ts)
  | n + 1, ts => do
    let (s, rest) ← script n .always ts
    if s.isEmpty then throw (unexpected none rest) else return (s, rest)

/-- A pipeline. -/
def pipeline : Nat → List Token → Except Malformed (List Command × List Token)
  | 0, ts => .error (unexpected none ts)
  | n + 1, ts => do
    if keyword? ts = some "!" then
      let (p, ts) ← pipeline n (ts.drop 1)
      return ([.compound .negated [[(.always, p)]] []], ts)
    let (c, ts) ← command n ts
    match ts with
    | .pipe :: ts => do
      let (cs, ts) ← pipeline n (skipNewlines ts)
      return (c :: cs, ts)
    | ts => return ([c], ts)

/-- Tests, each with its script, up to the word that ends a choice. -/
def choice : Nat → List Token → Except Malformed (List Script × List Token)
  | 0, ts => .error (unexpected none ts)
  | n + 1, ts => do
    let (test, ts) ← body n ts
    let ts ← expect "then" ts
    let (yes, ts) ← body n ts
    if keyword? ts = some "elif" then
      let (more, ts) ← choice n (ts.drop 1)
      return (test :: yes :: more, ts)
    else if keyword? ts = some "else" then
      let (no, ts) ← body n (ts.drop 1)
      return ([test, yes, no], ← expect "fi" ts)
    else return ([test, yes], ← expect "fi" ts)

/-- A command. -/
def command : Nat → List Token → Except Malformed (Command × List Token)
  | 0, ts => .error (unexpected none ts)
  | n + 1, ts => do
    let closed (form : Form) (bodies : List Script) (ts : List Token) :
        Except Malformed (Command × List Token) := do
      let (s, ts) ← simple {} ts
      if s.words.isEmpty then return (.compound form bodies s.targets, ts)
      else throw (.unexpected "word" none)
    let loop (form : Form) (bodies : List Script) (ts : List Token) :
        Except Malformed (Command × List Token) := do
      let (b, ts) ← body n (← expect "do" ts)
      closed form (bodies ++ [b]) (← expect "done" ts)
    match ts with
    | .opening :: ts => do
      let (b, ts) ← body n ts
      match ts with
      | .closing :: ts => closed .apart [b] ts
      | ts => throw (unexpected (some ")") ts)
    | ts =>
      match keyword? ts with
      | some "\x7b" => do
        let (b, ts) ← body n (ts.drop 1)
        closed .group [b] (← expect "\x7d" ts)
      | some "if" => do
        let (bodies, ts) ← choice n (ts.drop 1)
        closed .choice bodies ts
      | some "while" => do
        let (test, ts) ← body n (ts.drop 1)
        loop (.loop true 0) [test] ts
      | some "until" => do
        let (test, ts) ← body n (ts.drop 1)
        loop (.loop false 0) [test] ts
      | some "for" =>
        match ts.drop 1 with
        | .word w :: ts =>
          let separated (ts : List Token) : List Token :=
            skipNewlines (if ts.head? = some (.next .always "\";\"") then ts.drop 1 else ts)
          let name := ((literal? w).getD "").toList
          match skipNewlines ts with
          | .word v :: rest =>
            if literal? v = some "in" then
              let (words, ts) := wordList rest
              loop (.each name (some words)) [] (separated ts)
            else loop (.each name none) [] (separated ts)
          | _ => loop (.each name none) [] (separated ts)
        | ts => throw (unexpected none ts)
      | some _ => throw (unexpected none ts)
      | none => do
        let (s, rest) ← simple {} ts
        if s.words.isEmpty && s.targets.isEmpty then throw (unexpected none rest)
        else return (.simple s, rest)

end

/-- The script that a text writes. -/
def Script.read (os : Octets) : Except Malformed Script := do
  let ts ← tokens (os.length + 1) os
  let (s, rest) ← script (6 * ts.length + 6) .always ts
  if rest.isEmpty then return s else throw (unexpected none rest)

end TemplateStyler.Shell
