import TemplateStyler.Program.Basic
import TemplateStyler.Shell.Script

/-!
# The state of the shell

A shell has arguments, variables, an input and a status. What its commands write is kept in order
with the number of the stream that it went to, so that streams can be led into each other and into
pipes.

* `Shell.State.write` writes, `Shell.State.emitted` is what went to a stream.
* `Shell.builtin?` are the commands that act on the state itself.
-/

namespace TemplateStyler.Shell

/-- The state of a shell. -/
structure State where
  /-- The name under which the shell was started. -/
  name : Octets
  arguments : List Octets := []
  /-- The variables with their values. -/
  bindings : List (Octets × Octets) := []
  /-- What was written, with the streams that it went to. -/
  written : List (Nat × Octets) := []
  /-- The streams to which output and error output go at present; zero is none. -/
  routes : Nat × Nat := (1, 2)
  /-- The number of the next pipe. -/
  pipes : Nat := 3
  /-- What is left of the input. -/
  rest : Octets
  status : Nat := 0
  /-- Whether the shell is over. -/
  ended : Bool := false
  deriving DecidableEq, Repr, Inhabited

namespace State

/-- The state after octets were written to the output or the error output. -/
def write (s : State) (stream : Nat) (os : Octets) : State :=
  let route := if stream = 2 then s.routes.2 else s.routes.1
  if os.isEmpty || route == 0 then s else { s with written := s.written ++ [(route, os)] }

/-- What went to a stream. -/
def emitted (s : State) (stream : Nat) : Octets :=
  (s.written.filter (·.1 == stream)).flatMap Prod.snd

/-- What went to other streams. -/
def elsewhere (s : State) (stream : Nat) : List (Nat × Octets) :=
  s.written.filter (·.1 != stream)

/-- The state with a complaint of the shell and a status. -/
def complain (s : State) (status : Nat) (complaint : Octets) : State :=
  { s.write 2 (s.name ++ ": 1: ".toList ++ complaint ++ ['\n']) with status }

/-- The state with a variable set. -/
def set (s : State) (name value : Octets) : State :=
  { s with bindings := (name, value) :: s.bindings.filter (·.1 != name) }

/-- The state after an assignment in one text; a name without a value changes nothing. -/
def assign (s : State) (text : Octets) : State :=
  match text.dropWhile (· ≠ '=') with
  | _ :: value => s.set (text.takeWhile (· ≠ '=')) value
  | [] => s

/-- The number of the shell. -/
def selfNumber : Octets := ['1']

/-- The value of a parameter. -/
def value (s : State) (name : Octets) : Octets :=
  match name with
  | ['?'] => (toString s.status).toList
  | ['$'] => selfNumber
  | ['#'] => (toString s.arguments.length).toList
  | ['@'] | ['*'] => Program.join [' '] s.arguments
  | ['0'] => s.name
  | _ =>
    match Text.decimal? name with
    | some n => (s.arguments[n - 1]?).getD []
    | none => (s.bindings.lookup name).getD []

/-- The state after a program ran with arguments. -/
def started (s : State) (directory : Directory) (program : Program) (arguments : List Octets) :
    State :=
  let e := program directory arguments s.rest
  { (s.write 1 e.out).write 2 e.err with rest := e.rest, status := e.status }

end State

/-! ### Tests -/

/-- An integer, perhaps with a sign. -/
def integer? : Octets → Option Int
  | '-' :: digits => (Text.decimal? digits).map fun n => -n
  | '+' :: digits => (Text.decimal? digits).map Int.ofNat
  | digits => (Text.decimal? digits).map Int.ofNat

/-- Whether two integers compare as an operator says. -/
def compares? (operator : String) (a b : Int) : Option Bool :=
  match operator with
  | "-eq" => some (a == b)
  | "-ne" => some (a != b)
  | "-lt" => some (a < b)
  | "-le" => some (a ≤ b)
  | "-gt" => some (b < a)
  | "-ge" => some (b ≤ a)
  | _ => none

/-- Whether a test holds. -/
def holds? (directory : Directory) : List Octets → Option Bool
  | [] => some false
  | [a] => some (!a.isEmpty)
  | ['!'] :: more => (holds? directory more).map not
  | [operator, a] =>
    match String.ofList operator with
    | "-n" => some (!a.isEmpty)
    | "-z" => some a.isEmpty
    | "-e" | "-f" | "-r" => some (Program.file? directory a).isSome
    | "-s" => some ((Program.file? directory a).map (!·.isEmpty) == some true)
    | _ => none
  | [a, operator, b] =>
    match String.ofList operator with
    | "=" => some (a == b)
    | "!=" => some (a != b)
    | text => do compares? text (← integer? a) (← integer? b)
  | _ => none

/-! ### Reading lines -/

/-- The first line of a text, whether it has an end, and the text after it. Unless the line is taken
as it is, a backslash makes the octet after it stand for itself, and a newline after it is left out.
-/
def line (asIs : Bool) : Octets → Octets × Bool × Octets
  | [] => ([], false, [])
  | '\n' :: os => ([], true, os)
  | '\\' :: c :: os =>
    if asIs then
      let (l, whole, rest) := line asIs (c :: os)
      ('\\' :: l, whole, rest)
    else
      let (l, whole, rest) := line asIs os
      (if c = '\n' then l else c :: l, whole, rest)
  | c :: os =>
    let (l, whole, rest) := line asIs os
    (c :: l, whole, rest)

/-- The words of a line for several names; the last name gets all that is left. -/
def shared : List Octets → Octets → List (Octets × Octets)
  | [], _ => []
  | [name], l => [(name, Text.dropEndWhile Text.isBlank (l.dropWhile Text.isBlank))]
  | name :: names, l =>
    let l := l.dropWhile Text.isBlank
    (name, l.takeWhile (!Text.isBlank ·)) :: shared names (l.dropWhile (!Text.isBlank ·))

/-- The state after a line was read into variables. The flag says whether blanks around it are kept.
-/
def State.read (s : State) (keepsBlanks : Bool) (arguments : List Octets) : State :=
  let asIs := arguments.head? == some ['-', 'r']
  let names := if asIs then arguments.drop 1 else arguments
  if names.isEmpty then s.complain 2 "read: arg count".toList
  else
    let (l, whole, rest) := line asIs s.rest
    let values := match keepsBlanks, names with
      | true, name :: more => (name, l) :: more.map fun n => (n, [])
      | _, names => shared names l
    { values.foldl (fun s v => s.set v.1 v.2) s with rest, status := if whole then 0 else 1 }

/-! ### Commands of the shell itself -/

/-- The state after the shell was told to end. -/
def State.exit (s : State) (arguments : List Octets) : State :=
  match arguments with
  | [] => { s with ended := true }
  | n :: _ =>
    match Text.decimal? n with
    | some status => { s with status := status % 256, ended := true }
    | none => { s.complain 2 ("exit: Illegal number: ".toList ++ n) with ended := true }

/-- The state after a signal was sent. -/
def State.kill (s : State) (arguments : List Octets) : State :=
  if arguments.head? = some ['-', '0'] then { s with status := 0 }
  else if State.selfNumber ∈ arguments then { s with status := 137, ended := true }
  else s.complain 1 "kill: No such process".toList

/-- The state after a test. -/
def State.test (s : State) (directory : Directory) (arguments : List Octets) : State :=
  match holds? directory arguments with
  | some outcome => { s with status := if outcome then 0 else 1 }
  | none => s.complain 2 "test: unexpected operator".toList

/-- What a command of the shell itself does with its arguments, where there is one of the name. -/
def builtin? (directory : Directory) (name : Octets) : Option (State → List Octets → State) :=
  match String.ofList name with
  | "exit" => some State.exit
  | "kill" => some State.kill
  | "read" => some (State.read · false)
  | "test" => some fun s arguments => s.test directory arguments
  | "[" => some fun s arguments =>
    if arguments.getLast? = some [']'] then s.test directory arguments.dropLast
    else s.complain 2 "[: missing ]".toList
  | "shift" => some fun s _ =>
    if s.arguments.isEmpty then s.complain 2 "shift: can't shift that many".toList
    else { s with arguments := s.arguments.drop 1, status := 0 }
  | "export" => some fun s arguments =>
    { arguments.foldl State.assign s with status := 0 }
  | "set" => some fun s arguments =>
    if arguments.head? = some ['-', '-'] then { s with arguments := arguments.drop 1, status := 0 }
    else { s with status := 0 }
  | ":" | "trap" | "ulimit" | "umask" | "wait" => some fun s _ => { s with status := 0 }
  | _ => none

end TemplateStyler.Shell
