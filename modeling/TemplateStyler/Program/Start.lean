import TemplateStyler.Config.Basic
import TemplateStyler.Shell.Run

/-!
# Starting programs

* `Program.start` finds a program by its name, or says why it cannot be started.
* `Invocation.tool` is the tool that starts a program for every text.
-/

namespace TemplateStyler

namespace Program

/-- The programs that can be started. -/
def known? (name : String) : Option Program :=
  match name with
  | "sh" => some sh
  | "echo" => some echo
  | _ => Shell.program? name.toList

/-- The directories that hold programs. -/
def places : List String := ["/bin/", "/usr/bin/"]

/-- The directories that a name may mean, which are there but cannot be started. -/
def directories : List String := ["/", ".", "..", "./", "../", "/bin", "/usr", "/usr/bin", "/tmp"]

/-- The program with a name, or why it cannot be started. -/
def start (directory : Directory) (name : Text) : Except String Program :=
  let written := String.ofList name
  let inPlace := places.findSome? fun place =>
    (Text.dropPrefix? place.toList name).bind fun rest => known? (String.ofList rest)
  if '\x00' ∈ name then .error "nul byte found in provided data"
  else match (known? written).or inPlace with
    | some program => .ok program
    | none =>
      let isFile := '/' ∈ name ∧ (directory.find? name).isSome
      if directories.contains written ∨ isFile then .error "Permission denied (os error 13)"
      else .error "No such file or directory (os error 2)"

end Program

/-- The tool that starts a program for every text, in a directory. -/
def Invocation.tool (directory : Directory) (i : Invocation) : Tool := fun _ input =>
  match Program.start directory i.program with
  | .error cause => .error (.spawn (String.ofList i.program) cause)
  | .ok program =>
    if i.arguments.any ('\x00' ∈ ·) then
      .error (.spawn (String.ofList i.program) "nul byte found in provided data")
    else .ok (program directory (i.arguments.map Octets.ofText) (Octets.ofText input)).output

end TemplateStyler
