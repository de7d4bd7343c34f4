import TemplateStyler.CommandLine.Option

/-!
# Requests

The arguments of the program name one of its commands, a template, and perhaps a configuration file.

* `Request.read` reads a request.
* `Request.help` is the help of a command.
-/

namespace TemplateStyler

/-- How records of spans are written. -/
inductive RecordFormat where
  | simple
  | json
  | yaml
  deriving DecidableEq, Repr, Inhabited

/-- What is to be done with a template. -/
inductive Action where
  /-- Write the spans of a part of it, up to its end where no end is given. -/
  | styles (start : Nat) (stop : Option Nat) (format : RecordFormat) (merged : Bool)
  /-- Write the problems of its scripts. -/
  | check (asJson : Bool)
  /-- Reformat its scripts, in the file itself or on the output. -/
  | format (inPlace : Bool)
  deriving DecidableEq, Repr, Inhabited

/-- A request: what is to be done, with which template, under which configuration. -/
structure Request where
  action : Action
  template : Text
  config : Option Text
  deriving DecidableEq, Repr, Inhabited

namespace Request

/-! ### Options -/

/-- The option that names a configuration file. -/
def configSwitch : Switch := ⟨"config", some 'c', some fun _ => true⟩

/-- The option that asks for help. -/
def helpSwitch : Switch := ⟨"help", some 'h', none⟩

/-- Whether a value is one of some words. -/
def isOneOf (words : List String) (value : Text) : Bool := words.contains (String.ofList value)

/-- What the program accepts. -/
def program : Options.Accepted where
  switches := [configSwitch, helpSwitch, ⟨"version", some 'V', none⟩]
  commands := ["styles", "check", "format", "help"]

/-- What a command accepts, with its own options. -/
def command (name : String) (switches : List Switch) : Options.Accepted where
  name := some name
  switches := switches ++ [configSwitch, helpSwitch]
  operands := 1

/-- What the command that writes spans accepts. -/
def stylesCommand : Options.Accepted :=
  command "styles"
    [⟨"start", none, some fun v => (Options.size? v).isSome⟩,
     ⟨"end", none, some fun v => (Options.size? v).isSome⟩,
     ⟨"format", some 'f', some (isOneOf ["simple", "json", "yaml"])⟩, ⟨"merge", none, none⟩]

/-- What the command that writes problems accepts. -/
def checkCommand : Options.Accepted :=
  command "check" [⟨"format", some 'f', some (isOneOf ["simple", "json"])⟩]

/-- What the command that reformats accepts. -/
def formatCommand : Options.Accepted := command "format" [⟨"in-place", some 'i', none⟩]

/-- How spans are written, as options say. -/
def recordFormat (o : Options) : RecordFormat :=
  match (o.get? "format").map String.ofList with
  | some "json" => .json
  | some "yaml" => .yaml
  | _ => .simple

/-! ### Reading -/

/-- The request of a command with one template. The configuration that the command names goes before
the one named before the command. -/
def ofCommand (accepted : Options.Accepted) (action : Options → Action) (before : Options)
    (arguments : List Text) : Except Stop Request := do
  let (o, _) ← Options.read accepted arguments
  match o.operands with
  | [template] => return ⟨action o, template, (o.get? "config").or (before.get? "config")⟩
  | _ => .error .usage

/-- The request of arguments. -/
def read (arguments : List Text) : Except Stop Request := do
  match ← Options.read program arguments with
  | (o, none) => .error (if o.given.isEmpty then .nothing else .usage)
  | (o, some (name, rest)) =>
    match name with
    | "styles" =>
      ofCommand stylesCommand (fun o =>
        .styles (((o.get? "start").bind Options.size?).getD 0) ((o.get? "end").bind Options.size?)
          (recordFormat o) (o.has "merge")) o rest
    | "check" => ofCommand checkCommand (fun o => .check (recordFormat o == .json)) o rest
    | "format" => ofCommand formatCommand (fun o => .format (o.has "in-place")) o rest
    | _ =>
      match rest with
      | [] => .error (.help none)
      | [name] =>
        if program.commands.contains (String.ofList name) then
          .error (.help (some (String.ofList name)))
        else .error .usage
      | _ => .error .usage

/-! ### Help -/

/-- Lines, each with its end. -/
def lines (ls : List String) : Text := ls.flatMap fun l => l.toList ++ ['\n']

/-- The version of the program. -/
def version : Text := lines ["ptyx 0.1.0"]

/-- What a command does. -/
def about (name : String) : String :=
  match name with
  | "styles" => "Print the style spans of a byte range"
  | "check" => "Check embedded Python blocks with the configured checker"
  | "format" => "Reformat embedded Python blocks with the configured formatter"
  | _ => "Print this message or the help of the given subcommand(s)"

/-- The help on the options of a command with one template. -/
def commandHelp (name : String) (options : List String) : Text :=
  lines ([about name, "", "Usage: ptyx " ++ name ++ " [OPTIONS] <path>", "", "Arguments:",
      "  <path>  Path to the ptyx file", "", "Options:",
      "  -c, --config <config>  Configuration file layered over the defaults"]
    ++ options ++ ["  -h, --help             Print help"])

/-- The help of a command, of the program itself where there is no name. -/
def help : Option String → Text
  | none =>
    lines ["Style, check and format ptyx templates", "", "Usage: ptyx [OPTIONS] <COMMAND>", "",
      "Commands:", "  styles  " ++ about "styles", "  check   " ++ about "check",
      "  format  " ++ about "format", "  help    " ++ about "help", "", "Options:",
      "  -c, --config <config>  Configuration file layered over the defaults",
      "  -h, --help             Print help", "  -V, --version          Print version"]
  | some "styles" =>
    commandHelp "styles"
      ["      --start <start>    First byte of the range [default: 0]",
       "      --end <end>        End of the range (default: end of file)",
       "  -f, --format <format>  [default: simple] [possible values: simple, json, yaml]",
       "      --merge            Merge adjacent spans with the same style"]
  | some "check" =>
    commandHelp "check"
      ["  -f, --format <format>  [default: simple] [possible values: simple, json]"]
  | some "format" =>
    commandHelp "format"
      ["  -i, --in-place         Rewrite the file instead of printing the result"]
  | some _ =>
    lines [about "help", "", "Usage: ptyx help [COMMAND]...", "", "Arguments:",
      "  [COMMAND]...  Print help for the subcommand(s)"]

end Request

end TemplateStyler
