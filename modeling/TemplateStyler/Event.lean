/-!
# Events

Checking and formatting go on when a tool fails on a block. What went wrong is reported beside the
result, as events in the order in which they happen.

* `Event.severity` and `Event.message` are what a log shows of an event.
-/

namespace TemplateStyler

/-- How grave an event is. -/
inductive Severity where
  | warning
  | error
  deriving DecidableEq, Repr, Inhabited

/-- The word for a severity in a log. -/
def Severity.word : Severity → String
  | .warning => "WARN"
  | .error => "ERROR"

/-- Something that went wrong without stopping the work. -/
inductive Event where
  /-- The checker could not be run on the block at a line. -/
  | checkerNotRun (block : Nat)
  /-- The checker failed on the block at a line and reported nothing. -/
  | checkerFailed (block : Nat) (stderr : List Char)
  /-- The checker's report on the block at a line cannot be read. -/
  | checkerUnreadable (block : Nat) (stderr : List Char)
  /-- The formatter refused a block. -/
  | formatterRejected (stderr : List Char)
  /-- The formatter could not be run on a block. -/
  | formatterNotRun
  /-- The lines that stand for directives came back in another number. -/
  | sentinelMismatch (leftOver : Nat) (missing : Bool)
  deriving DecidableEq, Repr, Inhabited

namespace Event

/-- How grave an event is: a failed check is an error, a failed reformatting a warning. -/
def severity : Event → Severity
  | checkerNotRun _ | checkerFailed .. | checkerUnreadable .. => .error
  | formatterRejected _ | formatterNotRun | sentinelMismatch .. => .warning

/-- What happened, in words. -/
def message : Event → String
  | checkerNotRun _ => "checker failed to run"
  | checkerFailed .. => "checker failed without output"
  | checkerUnreadable .. => "checker output is not valid JSON"
  | formatterRejected _ => "formatter rejected block, keeping it as is"
  | formatterNotRun => "formatter failed to run, keeping block as is"
  | sentinelMismatch .. => "sentinel lines do not match the queued directives"

end Event

end TemplateStyler
