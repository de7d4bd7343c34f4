import TemplateStyler.Config.Basic
import TemplateStyler.Setting.Path
import TemplateStyler.Toml.Read

/-!
# Loading configurations

A configuration is made from layers. The settings that always hold come first, then one file after
the other, then single settings that are named by paths.

* `Config.load` is the configuration of files and single settings.
* `Config.standard` is the configuration without files or single settings.
-/

namespace TemplateStyler.Config

/-- A file of a configuration. -/
inductive File where
  /-- A file with a text. -/
  | found (text : Text)
  /-- A file that is not there; it may have to be. -/
  | absent (required : Bool)
  deriving DecidableEq, Repr, Inhabited

/-- The settings with the entries of a file over them. A name of the file that is a path names the
setting at its end. -/
def withEntries (settings : Setting) (entries : List (Text × Setting)) : Except Fault Setting :=
  entries.foldlM (fun settings e =>
    Setting.place e.2 ((Setting.Path.read? e.1).getD [.name e.1]) (some settings)) settings

/-- The settings with a file over them. -/
def withFile (settings : Setting) : File → Except Fault (Except ConfigError Setting)
  | .absent required => .ok (if required then .error .missing else .ok settings)
  | .found text =>
    match Toml.read? text with
    | none => .ok (.error .malformed)
    | some entries => (withEntries settings entries).map .ok

/-- The settings with files over them, one after the other. -/
def withFiles (settings : Setting) : List File → Except Fault (Except ConfigError Setting)
  | [] => .ok (.ok settings)
  | file :: files => do
    match ← withFile settings file with
    | .ok settings => withFiles settings files
    | .error e => return .error e

/-- The configuration of files and of single settings, each with its path. -/
def load (files : List File) (single : List (List Setting.Step × Setting)) :
    Except Fault (Except ConfigError Config) := do
  match ← withFiles usual files with
  | .error e => return .error e
  | .ok settings =>
    let settings ← single.foldlM (fun settings s => Setting.place s.2 s.1 (some settings)) settings
    return read settings

/-- The configuration without files or single settings. -/
def standard : Except Fault (Except ConfigError Config) := load [] []

end TemplateStyler.Config
