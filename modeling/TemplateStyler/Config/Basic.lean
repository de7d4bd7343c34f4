import TemplateStyler.Format
import TemplateStyler.Registry.Basic
import TemplateStyler.Setting.Basic
import TemplateStyler.Text.Digit

/-!
# Configurations

What a configuration decides: the programs that check and format, how blocks are rewritten, and the
names that templates have beyond the stock ones.

* `Config.read` reads a configuration off its settings. A number, a flag or a text may stand where
  another of the three is asked for, as far as it can be understood as one; a list may stand for a
  table and holds its settings in their fixed order.
* `Config.usual` are the settings that hold where no layer says otherwise.
-/

namespace TemplateStyler

/-- A program and its arguments. -/
structure Invocation where
  program : Text
  arguments : List Text
  deriving DecidableEq, Repr, Inhabited

/-- A configuration. -/
structure Config where
  checker : Invocation
  formatter : Invocation
  blocks : Format.Options
  /-- Names beyond the stock registry. -/
  grammar : Registry
  deriving Repr, Inhabited

/-- Why there is no configuration. -/
inductive ConfigError where
  /-- A path to a setting is malformed. -/
  | path
  /-- A file that has to be there is not. -/
  | missing
  /-- A file is malformed. -/
  | malformed
  /-- A setting cannot be understood as the text or the number that is asked for. -/
  | unsuitable
  /-- A setting is missing, or is not the table or the list that is asked for. -/
  | misshapen
  deriving DecidableEq, Repr, Inhabited

/-! ### Reading settings -/

namespace Setting

/-- A setting as a text. -/
def toText : Setting → Except ConfigError Text
  | .text t => .ok t
  | .flag b => .ok (toString b).toList
  | .whole n => .ok (toString n).toList
  | .real x => .ok x.text
  | .nothing | .list _ | .table _ => .error .unsuitable

/-- The words that stand for one and for zero. -/
def switch? (t : Text) : Option Nat :=
  let word := String.ofList (t.map Char.toLower)
  if ["true", "on", "yes"].contains word then some 1
  else if ["false", "off", "no"].contains word then some 0
  else none

/-- The size that a text writes in decimal digits, where a plus may stand before them. -/
def sizeOf? (t : Text) : Option Nat :=
  (Text.decimal? (if t.head? = some '+' then t.drop 1 else t)).filter (· < Size.bound)

/-- A setting as a size. -/
def toSize : Setting → Except ConfigError Nat
  | .whole (.ofNat n) => .ok n
  | .flag b => .ok b.toNat
  | .real x => .ok (x.toSize Size.max)
  | .text t => ((switch? t).or (sizeOf? t)).elim (.error .unsuitable) .ok
  | .whole (.negSucc _) | .nothing | .list _ | .table _ => .error .unsuitable

/-- A setting as a list of texts. -/
def toTexts : Setting → Except ConfigError (List Text)
  | .list xs => xs.mapM toText
  | _ => .error .misshapen

/-- The settings with the given names in a table, or the first items of a list. -/
def fields (names : List String) : Setting → Except ConfigError (List (Option Setting))
  | .table es => .ok (names.map fun name => lookup name.toList es)
  | .list xs => .ok ((List.range names.length).map fun i => xs[i]?)
  | _ => .error .misshapen

/-- A setting that has to be there, as something else. -/
def needed {α : Type} (read : Setting → Except ConfigError α) :
    Option Setting → Except ConfigError α
  | some v => read v
  | none => .error .misshapen

/-- A list of texts, empty where there is no setting. -/
def textsOrNone : Option Setting → Except ConfigError (List Text)
  | some v => v.toTexts
  | none => .ok []

end Setting

namespace Invocation

/-- The program and the arguments of a setting. -/
def read (v : Setting) : Except ConfigError Invocation := do
  match ← v.fields ["program", "args"] with
  | [program, arguments] =>
    return ⟨← Setting.needed Setting.toText program, ← Setting.needed Setting.toTexts arguments⟩
  | _ => .error .misshapen

end Invocation

namespace Config

/-- How blocks are rewritten. -/
def readBlocks (v : Setting) : Except ConfigError Format.Options := do
  match ← v.fields ["delimiter_length", "sentinel"] with
  | [dots, sentinel] =>
    let dots ← Setting.needed Setting.toSize dots
    return { dots, sentinel := ← Setting.needed Setting.toText sentinel }
  | _ => .error .misshapen

/-- Names beyond the stock registry; any of the lists may be missing. -/
def readGrammar (v : Setting) : Except ConfigError Registry := do
  match ← v.fields ["argument_tags", "plain_tags", "builtins", "config_keys"] with
  | [argumentTags, plainTags, builtins, headerKeys] =>
    return {
      argumentTags := ← Setting.textsOrNone argumentTags
      plainTags := ← Setting.textsOrNone plainTags
      builtins := ← Setting.textsOrNone builtins
      headerKeys := ← Setting.textsOrNone headerKeys }
  | _ => .error .misshapen

/-- The configuration of settings. -/
def read (v : Setting) : Except ConfigError Config := do
  match ← v.fields ["checker", "formatter", "blocks", "grammar"] with
  | [checker, formatter, blocks, grammar] =>
    return {
      checker := ← Setting.needed Invocation.read checker
      formatter := ← Setting.needed Invocation.read formatter
      blocks := ← Setting.needed readBlocks blocks
      grammar := ← Setting.needed readGrammar grammar }
  | _ => .error .misshapen

/-! ### The settings of no layer -/

/-- A program and its arguments, as a setting. -/
def invocation (program : String) (arguments : List String) : Setting :=
  .ofEntries [("program", .ofString program), ("args", .list (arguments.map .ofString))]

/-- The settings that hold where no layer says otherwise. -/
def usual : Setting :=
  .ofEntries
    [("checker", invocation "ruff"
        ["check", "--quiet", "--output-format=json", "--select=E,F,W",
         "--ignore=E203,E226,E402,E501,E731,E741,F403,F405,F821,W291,W292,W293", "-"]),
     ("formatter", invocation "ruff" ["format", "--quiet", "-"]),
     ("blocks", .ofEntries
        [("delimiter_length", .whole Block.usualDots),
         ("sentinel", .ofString Queue.usualSentinel)]),
     ("grammar", .ofEntries
        [("argument_tags", .list []), ("plain_tags", .list []), ("builtins", .list []),
         ("config_keys", .list [])])]

end Config

end TemplateStyler
