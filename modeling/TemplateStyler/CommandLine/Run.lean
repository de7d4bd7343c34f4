import TemplateStyler.Check
import TemplateStyler.CommandLine.Record
import TemplateStyler.CommandLine.Request
import TemplateStyler.Config.Load
import TemplateStyler.Program.Start

/-!
# The command line

A run of the program takes arguments and the directory that it works in, and ends with a status,
what it wrote to its output and to its error output, and the directory as it left it.

* `CommandLine.run` is the run. Status 2 stands for wrong arguments; status 1 for a configuration or
  a template that cannot be read and for problems found by a check.
-/

namespace TemplateStyler.CommandLine

/-- How a run ended. -/
structure Outcome where
  status : Nat := 0
  out : Text := []
  err : Text := []
  directory : Directory
  deriving DecidableEq, Repr, Inhabited

/-- A run that ended with a complaint. -/
def complaint (directory : Directory) (status : Nat) (what : Text) (why : String) : Outcome where
  status := status
  err := what ++ ": ".toList ++ why.toList ++ ['\n']
  directory := directory

/-- Why there is no configuration, in words. -/
def configReason : ConfigError → String
  | .path => "a path to a setting is malformed"
  | .missing => "the file was not found"
  | .malformed => "the file is malformed"
  | .unsuitable => "a setting has an unsuitable value"
  | .misshapen => "a setting is missing or misshapen"

/-- Why a request has no answer, in words. -/
def faultReason : Fault → String
  | .badPosition => "a position is out of place"
  | .tooLarge => "a size is too large"
  | .misplacedStyle => "a style is out of place"

/-- The configuration file at a path, where the ending `toml` may be left out. -/
def configFile (directory : Directory) (path : Text) : Config.File :=
  match (directory.find? path).or (directory.find? (path ++ ".toml".toList)) with
  | some text => .found text
  | none => .absent true

/-- What is done with a template. -/
def act (directory : Directory) (config : Config) (path text : Text) :
    Action → Except Fault Outcome
  | .styles start stop format merged => do
    let records ← Record.ofSlice (Registry.stock.extend config.grammar) text start
      (stop.getD (Text.byteSize text)) merged
    let out := match format with
      | .simple => Record.simple records
      | .json => Record.json records
      | .yaml => Record.yaml records
    return { out, directory }
  | .check asJson => do
    let report ← Check.document (config.checker.tool directory) text
    let out ← if asJson then
        pure (Json.pretty (.array (report.diagnostics.map Diagnostic.toJson)) ++ ['\n'])
      else do
        let shown ← report.diagnostics.mapM Diagnostic.display
        pure (shown.flatMap fun t => path ++ ':' :: t ++ ['\n'])
    return { status := if report.diagnostics.isEmpty then 0 else 1, out, directory }
  | .format inPlace =>
    let formatted := (Format.document (config.formatter.tool directory) config.blocks text).text
    .ok (if inPlace then { directory := directory.write path formatted }
      else { out := formatted, directory })

/-- The run of a request. The configuration is read before the template. -/
def answer (directory : Directory) (r : Request) : Except Fault Outcome := do
  match ← Config.load ((r.config.map (configFile directory)).toList) [] with
  | .error e => return complaint directory 1 "Configuration error".toList (configReason e)
  | .ok config =>
    match directory.find? r.template with
    | none =>
      return complaint directory 1 ("Error reading file '".toList ++ r.template ++ ['\''])
        "No such file or directory (os error 2)"
    | some text => act directory config r.template text r.action

/-- The run of arguments. -/
def run (directory : Directory) (arguments : List Text) : Outcome :=
  match Request.read arguments with
  | .error .nothing => { status := 2, err := Request.help none, directory }
  | .error .usage => complaint directory 2 "error".toList "the arguments are wrong"
  | .error (.help name) => { out := Request.help name, directory }
  | .error .version => { out := Request.version, directory }
  | .ok request =>
    match answer directory request with
    | .ok outcome => outcome
    | .error f => complaint directory 101 "Fault".toList (faultReason f)

end TemplateStyler.CommandLine
