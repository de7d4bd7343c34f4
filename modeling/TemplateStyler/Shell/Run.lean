import TemplateStyler.Program.LineEditor
import TemplateStyler.Program.Portion
import TemplateStyler.Shell.State

/-!
# Running scripts of the shell

A script runs on a state. What runs in a shell of its own (a part of a pipeline, a script in
parentheses, a script whose output is part of a word) leaves what it wrote, its status and the rest
of the input.

* `Shell.runScript` runs a script, with a number that bounds how deep commands are nested and how
  often loops turn.
* `Program.sh` is the program.
-/

namespace TemplateStyler.Shell

/-! ### Fields -/

/-- The fields that words expand to: those that are complete, and the one that is open. -/
structure Fields where
  complete : List Octets := []
  current : Option Octets := none
  deriving DecidableEq, Repr, Inhabited

namespace Fields

/-- The fields with octets added to the open one. -/
def add (f : Fields) (os : Octets) : Fields := { f with current := some (f.current.getD [] ++ os) }

/-- The fields with the open one completed. -/
def close (f : Fields) : Fields :=
  match f.current with
  | some os => ⟨f.complete ++ [os], none⟩
  | none => f

/-- The fields with octets added, of which blanks and newlines separate fields. -/
def addSplit (f : Fields) : Octets → Fields
  | [] => f
  | c :: os =>
    if Text.isBlank c || c == '\n' then f.close.addSplit os else (f.add [c]).addSplit os

/-- The fields with several fields added, the first one to the open one. -/
def addAll (f : Fields) : List Octets → Fields
  | [] => f
  | a :: more => more.foldl (fun f a => f.close.add a) (f.add a)

end Fields

/-! ### Parts of commands -/

/-- A fragment that is not split into fields. -/
def Fragment.whole : Fragment → Fragment
  | octets _ os => octets true os
  | parameter _ name => parameter true name
  | output _ script => output true script

/-- The variable that a word assigns to and what it assigns. -/
def assignment? (w : Word) : Option (Octets × Word) :=
  let name := (w.map fun f => f.literal?.getD ['=']).takeWhile (· ≠ ['='])
  let value := w.drop name.length
  if value.head? = some (.octets false ['=']) ∧ (name.flatten.head?.map startsName).getD false ∧
      name.flatten.all continuesName then some (name.flatten, value.drop 1)
  else none

/-- The state after a command, with the streams that it had before. -/
def State.restored (before : State) (targets : List (Nat × Target)) (s : State) : State :=
  { s with
    routes := before.routes
    rest := if targets.any (·.1 == 0) then before.rest else s.rest }

/-- The stream to which a stream goes at present. -/
def State.route (s : State) (stream : Nat) : Nat :=
  if stream = 1 then s.routes.1 else if stream = 2 then s.routes.2 else 0

/-- The state with a stream led to another one. -/
def State.lead (s : State) (stream route : Nat) : State :=
  if stream = 1 then { s with routes := (route, s.routes.2) }
  else if stream = 2 then { s with routes := (s.routes.1, route) }
  else s

/-- The state with a stream led to a file, or with a file as input; nothing where there is no such
file. What goes to files is lost. -/
def State.leadFile? (s : State) (directory : Directory) (stream : Nat) (file : Octets) :
    Option State :=
  match stream, String.ofList file with
  | 0, "/dev/stdin" => some s
  | 0, _ => (Program.file? directory file).map fun os => { s with rest := os }
  | _, "/dev/stdout" => some (s.lead stream s.routes.1)
  | _, "/dev/stderr" => some (s.lead stream s.routes.2)
  | _, _ => some (s.lead stream 0)

/-- A shell of its own, whose output goes to a new pipe. -/
def State.piped (s : State) : State :=
  { s with written := [], routes := (s.pipes, s.routes.2), pipes := s.pipes + 1 }

/-- The state after a shell of its own ended. -/
def State.joined (s inner : State) : State :=
  { s with written := inner.written, rest := inner.rest, status := inner.status }

/-- Whether a pipeline runs after a status. -/
def Condition.holds : Condition → Nat → Bool
  | always, _ => true
  | afterSuccess, status => status == 0
  | afterFailure, status => status != 0

/-- The programs that a script can run. -/
def program? (name : Octets) : Option Program :=
  match String.ofList name with
  | "cat" => some Program.cat
  | "echo" => some Program.echoEscaped
  | "printf" => some Program.printf
  | "true" | "sleep" => some Program.succeed
  | "false" => some Program.fail
  | "tr" => some Program.tr
  | "sed" => some Program.sed
  | "head" => some Program.head
  | "wc" => some Program.count
  | _ => none

/-! ### Running -/

variable (directory : Directory)

mutual

/-- Fields and a state after one more fragment. -/
def expandFragment : Nat → Fields × State → Fragment → Fields × State
  | 0, p, _ => p
  | n + 1, (f, s), fragment =>
    match fragment with
    | .octets _ os => (f.add os, s)
    | .parameter quoted name =>
      if quoted then
        (if name = ['@'] then f.addAll s.arguments else f.add (s.value name), s)
      else (f.addSplit (s.value name), s)
    | .output quoted text =>
      let inner := runText n text s.piped
      let os := Text.dropEndWhile (· == '\n') (inner.emitted s.pipes)
      (if quoted then f.add os else f.addSplit os,
        s.joined { inner with written := s.written ++ inner.elsewhere s.pipes })

/-- The fields of words, and the state after them. -/
def expand : Nat → List Word → State → List Octets × State
  | 0, _, s => ([], s)
  | n + 1, words, s =>
    words.foldl (fun p w =>
      let (f, s) := w.foldl (expandFragment n) ({}, p.2)
      (p.1 ++ f.close.complete, s)) ([], s)

/-- The octets of a word that is one field, and the state after it. -/
def expandWhole : Nat → Word → State → Octets × State
  | 0, _, s => ([], s)
  | n + 1, w, s =>
    let (fields, s) := expand n [w.map Fragment.whole] s
    (Program.join [' '] fields, s)

/-- The state with streams led to their targets, and whether that succeeded. -/
def redirect : Nat → List (Nat × Target) → State → State × Bool
  | 0, _, s => (s, true)
  | n + 1, targets, s =>
    targets.foldl (fun p t =>
      match p, t with
      | (s, false), _ => (s, false)
      | (s, true), (stream, .stream k) => (s.lead stream (s.route k), true)
      | (s, true), (stream, .closed) =>
        (if stream = 0 then { s with rest := [] } else s.lead stream 0, true)
      | (s, true), (stream, .file w) =>
        let (file, s) := expandWhole n w s
        match s.leadFile? directory stream file with
        | some s => (s, true)
        | none => (s.complain 2 ("cannot open ".toList ++ file ++ ": No such file".toList), false))
      (s, true)

/-- The state after variables were set. -/
def assign : Nat → List (Octets × Word) → State → State
  | 0, _, s => s
  | n + 1, assigned, s =>
    assigned.foldl (fun s a =>
      let (value, s) := expandWhole n a.2 s
      s.set a.1 value) { s with status := 0 }

/-- The state after a shell was started with arguments. -/
def runShell : Nat → List Octets → State → State
  | 0, _, s => s
  | n + 1, arguments, s =>
    let child := { s with name := ['s', 'h'], arguments := [], bindings := [] }
    match arguments with
    | [['-', 'c']] => { s.write 2 "sh: 0: -c requires an argument\n".toList with status := 2 }
    | ['-', 'c'] :: script :: more =>
      s.joined (runText n script
        { child with name := more.headD child.name, arguments := more.drop 1 })
    | [] => s.joined (runText n s.rest { child with rest := [] })
    | ['-', 's'] :: more => s.joined (runText n s.rest { child with arguments := more, rest := [] })
    | file :: more =>
      match Program.file? directory file with
      | some script => s.joined (runText n script { child with name := file, arguments := more })
      | none =>
        { s.write 2 ("sh: 0: cannot open ".toList ++ file ++ ": No such file\n".toList) with
          status := 2 }

/-- The state after a command of fields. -/
def runFields : Nat → List Octets → State → State
  | 0, _, s => s
  | _ + 1, [], s => s
  | n + 1, name :: arguments, s =>
    if name = ['s', 'h'] then runShell n arguments s
    else match builtin? directory name, program? name with
      | some act, _ => act s arguments
      | none, some program => s.started directory program arguments
      | none, none =>
        let why := if name.isEmpty then ": Permission denied" else ": not found"
        s.complain 127 (name ++ why.toList)

/-- The state after a command of words. -/
def runSimple : Nat → Simple → State → State
  | 0, _, s => s
  | n + 1, c, s =>
    let assigned := (c.words.map assignment?).takeWhile Option.isSome
    let bindings := assigned.filterMap id
    let (fields, s) := expand n (c.words.drop assigned.length) s
    let (ready, led) := redirect n c.targets s
    if !led then s.restored c.targets ready
    else match fields.map String.ofList with
      | [] => s.restored c.targets (assign n bindings ready)
      | ["exec"] => { ready with status := 0 }
      | "exec" :: name :: _ =>
        if (program? name.toList).isSome ∨ name = "sh" then
          { runFields n (fields.drop 1) ready with ended := true }
        else
          { ready.complain 127 ("exec: ".toList ++ name.toList ++ ": not found".toList) with
            ended := true }
      | "read" :: _ =>
        s.restored c.targets (ready.read (bindings.any (·.1 = "IFS".toList)) (fields.drop 1))
      | _ => s.restored c.targets (runFields n fields ready)

/-- The state after a command that is put together from scripts. -/
def runForm : Nat → Form → List Script → State → State
  | 0, _, _, s => { s with ended := true, status := 1 }
  | n + 1, form, bodies, s =>
    match form, bodies with
    | .group, [b] => runScript n b s
    | .apart, [b] => s.joined (runScript n b s)
    | .negated, [b] =>
      let t := runScript n b s
      if t.ended then t else { t with status := if t.status = 0 then 1 else 0 }
    | .choice, test :: yes :: more =>
      let t := runScript n test s
      if t.ended then t
      else if t.status = 0 then runScript n yes t
      else match more with
        | [] => { t with status := 0 }
        | [no] => runScript n no t
        | more => runForm n .choice more t
    | .loop outcome status, [test, b] =>
      let t := runScript n test s
      if t.ended then t
      else if (t.status == 0) == outcome then
        let t := runScript n b t
        if t.ended then t else runForm n (.loop outcome t.status) bodies t
      else { t with status }
    | .each name words, [b] =>
      let (values, s) := match words with
        | some words => expand n words s
        | none => (s.arguments, s)
      values.foldl (fun s v => if s.ended then s else runScript n b (s.set name v))
        { s with status := 0 }
    | _, _ => s

/-- The state after a command. -/
def runCommand : Nat → Command → State → State
  | 0, _, s => s
  | n + 1, .simple c, s => runSimple n c s
  | n + 1, .compound form bodies targets, s =>
    let (ready, led) := redirect n targets s
    s.restored targets (if led then runForm n form bodies ready else ready)

/-- The state after a pipeline. -/
def runPipeline : Nat → List Command → State → State
  | 0, _, s => s
  | _ + 1, [], s => s
  | n + 1, [c], s => runCommand n c s
  | n + 1, c :: cs, s =>
    let first := runCommand n c s.piped
    let last := runPipeline n cs { s with written := [], rest := first.emitted s.pipes }
    { s with
      written := s.written ++ first.elsewhere s.pipes ++ last.written
      rest := first.rest
      status := last.status }

/-- The state after a script. -/
def runScript : Nat → Script → State → State
  | 0, _, s => { s with ended := true, status := 1 }
  | n + 1, steps, s =>
    steps.foldl (fun s step =>
      if s.ended || !step.1.holds s.status then s else runPipeline n step.2 s) s

/-- The state after the script that a text writes. -/
def runText : Nat → Octets → State → State
  | 0, _, s => { s with ended := true, status := 1 }
  | n + 1, text, s =>
    match Script.read text with
    | .ok script => runScript n script s
    | .error e =>
      { s.complain 2 ("Syntax error: ".toList ++ e.message.toList) with ended := true }

end

end Shell

/-- The shell: the script follows an option `c`, is in a file, or is the input. -/
def Program.sh : Program := fun directory arguments input =>
  let steps := 2 * (input.length + arguments.flatten.length) + 1000
  let s := Shell.runShell directory steps arguments { name := ['s', 'h'], rest := input }
  { out := s.emitted 1, err := s.emitted 2, status := s.status, rest := s.rest }

end TemplateStyler
