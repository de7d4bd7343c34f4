import TemplateStyler.Directory
import TemplateStyler.Program.Octets
import TemplateStyler.Tool

/-!
# Programs

A program takes arguments and an input and ends with a status, having written to its output and to
its error output. Programs that run one after the other share one input, so that a program also says
what it left of it.

* `Ending.output` is what a tool reports of the ending of a program.
-/

namespace TemplateStyler

/-- How a program ended. -/
structure Ending where
  out : Octets := []
  err : Octets := []
  /-- Zero where the program ended well. -/
  status : Nat := 0
  /-- What is left of the input. -/
  rest : Octets := []
  deriving DecidableEq, Repr, Inhabited

/-- A program that runs in a directory, by its arguments and its input. -/
abbrev Program := Directory → List Octets → Octets → Ending

/-- What a tool reports of an ending. -/
def Ending.output (e : Ending) : Output :=
  ⟨e.status == 0, Octets.toText e.out, Octets.toText e.err⟩

namespace Program

/-- The octets of parts with a separator between them. -/
def join (separator : Octets) (parts : List Octets) : Octets :=
  (parts.intersperse separator).flatten

/-- An ending with a complaint and a status, which leaves the input alone. -/
def complain (status : Nat) (complaint : String) (rest : Octets) : Ending :=
  { err := Octets.ofString complaint ++ ['\n'], status, rest }

/-- The octets of a file of the directory. -/
def file? (directory : Directory) (path : Octets) : Option Octets :=
  if path = Octets.ofString "/dev/null" then some []
  else (directory.find? (Octets.toText path)).map Octets.ofText

/-- The program that writes the files that it is given one after the other, where a dash is the
input; without arguments it writes its input. A file that is not there gives a complaint and a
status. -/
def gather (complaint : Octets → Octets) (status : Nat) : Program :=
  fun directory arguments input =>
  let step (e : Ending) (name : Octets) : Ending :=
    if name = ['-'] then { e with out := e.out ++ e.rest, rest := [] }
    else match file? directory name with
      | some text => { e with out := e.out ++ text }
      | none =>
        { e with
          err := e.err ++ complaint name ++ Octets.ofString ": No such file or directory\n"
          status }
  (if arguments.isEmpty then [['-']] else arguments).foldl step { rest := input }

/-- The program that writes files or its input. -/
def cat : Program := gather (Octets.ofString "cat: " ++ ·) 1

/-- The program that does nothing and ends well. -/
def succeed : Program := fun _ _ input => { rest := input }

/-- The program that does nothing and ends badly. -/
def fail : Program := fun _ _ input => { status := 1, rest := input }

end Program

end TemplateStyler
