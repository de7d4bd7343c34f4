import TemplateStyler.CommandLine.Run

/-!
# The program

`main` gathers the files that a request names, runs it, and writes what the run gave.
-/

open TemplateStyler

/-- The paths that a request may read. -/
def requestedPaths (arguments : List Text) : List Text :=
  match Request.read arguments with
  | .ok r => r.template :: (r.config.toList.flatMap fun c => [c, c ++ ".toml".toList])
  | .error _ => []

/-- The file at a path, where it can be read. -/
def gatherFile (path : Text) : IO (Option (Text × Text)) := do
  try
    let text ← IO.FS.readFile (String.ofList path)
    return some (Directory.nameOf path, text.toList)
  catch _ => return none

/-- Style, check or format a template. -/
def main (arguments : List String) : IO UInt32 := do
  let arguments := arguments.map String.toList
  let directory := (← (requestedPaths arguments).mapM gatherFile).filterMap id
  let outcome := CommandLine.run directory arguments
  for (file, old) in outcome.directory.zip directory do
    if file.2 ≠ old.2 then IO.FS.writeFile (String.ofList file.1) (String.ofList file.2)
  (← IO.getStdout).putStr (String.ofList outcome.out)
  (← IO.getStderr).putStr (String.ofList outcome.err)
  return outcome.status.toUInt32
