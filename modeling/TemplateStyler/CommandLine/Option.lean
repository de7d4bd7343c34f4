import TemplateStyler.Fault
import TemplateStyler.Text.Basic
import TemplateStyler.Text.Digit

/-!
# Options of a command line

Arguments are read from left to right. An option has a long name after two dashes and perhaps a
letter after one dash; its value follows an equals sign, directly the letter, or as the next
argument. Two dashes alone make all arguments after them operands.

* `Options.read` reads the arguments of a command up to the name of a subcommand, or says why it
  stopped.
-/

namespace TemplateStyler

/-- An option of a command. -/
structure Switch where
  /-- The long name. -/
  name : String
  letter : Option Char := none
  /-- Which values the option takes, where it takes one. -/
  value : Option (Text → Bool) := none

/-- Why the arguments do not make up a request. -/
inductive Stop where
  /-- There are no arguments. -/
  | nothing
  /-- An argument is wrong or missing. -/
  | usage
  /-- The help of a command is asked for, of the program itself where there is no name. -/
  | help (command : Option String)
  /-- The version is asked for. -/
  | version
  deriving DecidableEq, Repr, Inhabited

/-- What the arguments of a command say. -/
structure Options where
  /-- The options that were given, with their values; options without values have an empty one. -/
  given : List (String × Text) := []
  operands : List Text := []
  deriving DecidableEq, Repr, Inhabited

namespace Options

/-- The value of an option, where it was given. -/
def get? (o : Options) (name : String) : Option Text :=
  (o.given.find? (·.1 == name)).map Prod.snd

/-- Whether an option was given. -/
def has (o : Options) (name : String) : Bool := (o.get? name).isSome

/-- Whether a text writes a size, perhaps after a plus. -/
def size? (value : Text) : Option Nat :=
  (Text.decimal? (if value.head? = some '+' then value.drop 1 else value)).filter (· < Size.bound)

/-- The options with one more, which must not have been given before and needs a value that it
takes. -/
def add (o : Options) (s : Switch) (value : Text) : Except Stop Options :=
  if o.has s.name || !(s.value.map (· value)).getD true then .error .usage
  else .ok { o with given := o.given ++ [(s.name, value)] }

/-- What a command accepts. -/
structure Accepted where
  /-- The name of the command, where it is not the program itself. -/
  name : Option String := none
  switches : List Switch
  /-- The greatest number of operands. -/
  operands : Nat := 0
  /-- The names of subcommands. -/
  commands : List String := []

/-- An option of its own kind, which ends the reading. -/
def asks? (g : Accepted) (s : Switch) : Option Stop :=
  if s.name = "help" then some (.help g.name)
  else if s.name = "version" then some .version
  else none

/-- The options after the letters of an argument with one dash, and the option that still waits for
its value. -/
def letters (g : Accepted) (o : Options) : Text → Except Stop (Options × Option Switch)
  | [] => .ok (o, none)
  | c :: cs =>
    match g.switches.find? (·.letter == some c) with
    | none => .error .usage
    | some s =>
      match asks? g s, s.value with
      | some stop, _ => .error stop
      | none, none => do letters g (← o.add s []) cs
      | none, some _ =>
        if cs.isEmpty then if o.has s.name then .error .usage else .ok (o, some s)
        else do return (← o.add s (if cs.head? = some '=' then cs.drop 1 else cs), none)

/-- The options after an argument with two dashes, and the option that still waits for its value. -/
def long (g : Accepted) (o : Options) (argument : Text) : Except Stop (Options × Option Switch) :=
  let name := String.ofList (argument.takeWhile (· ≠ '='))
  let attached := argument.dropWhile (· ≠ '=')
  match g.switches.find? (·.name == name) with
  | none => .error .usage
  | some s =>
    match s.value, attached with
    | none, _ :: _ => .error .usage
    | none, [] =>
      match asks? g s with
      | some stop => .error stop
      | none => do return (← o.add s [], none)
    | some _, _ :: value => do return (← o.add s value, none)
    | some _, [] => if o.has s.name then .error .usage else .ok (o, some s)

/-- Whether an argument starts with a dash and is not a dash alone. -/
def isDashed : Text → Bool
  | '-' :: _ :: _ => true
  | _ => false

/-- The options with one more operand. -/
def operand (g : Accepted) (o : Options) (argument : Text) : Except Stop Options :=
  if o.operands.length < g.operands then .ok { o with operands := o.operands ++ [argument] }
  else .error .usage

/-- The options after arguments, and the name of the subcommand where there is one, with the
arguments after it. An option may wait for its value, and all arguments may be operands. -/
def readFrom (g : Accepted) (o : Options) (waiting : Option Switch) (operandsOnly : Bool) :
    List Text → Except Stop (Options × Option (String × List Text))
  | [] => if waiting.isSome then .error .usage else .ok (o, none)
  | a :: rest =>
    if operandsOnly then do readFrom g (← o.operand g a) none true rest
    else match waiting with
      | some s =>
        if isDashed a then .error .usage else do readFrom g (← o.add s a) none false rest
      | none =>
        if g.commands.contains (String.ofList a) then .ok (o, some (String.ofList a, rest))
        else match a with
          | ['-', '-'] => readFrom g o none true rest
          | '-' :: '-' :: name => do
            let (o, waiting) ← long g o name
            readFrom g o waiting false rest
          | '-' :: c :: cs => do
            let (o, waiting) ← letters g o (c :: cs)
            readFrom g o waiting false rest
          | a => do readFrom g (← o.operand g a) none false rest

/-- What the arguments of a command say, and its subcommand with the arguments after it. -/
def read (g : Accepted) (arguments : List Text) :
    Except Stop (Options × Option (String × List Text)) := readFrom g {} none false arguments

end Options

end TemplateStyler
