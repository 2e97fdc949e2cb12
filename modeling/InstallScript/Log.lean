/-!
What a run leaves behind besides its result: log records, and text written for the user.
-/

namespace InstallScript

/-- How important a log record is, most important first. -/
inductive LogLevel where
  | warn
  | info
  | debug
  deriving DecidableEq, Repr, Inhabited

namespace LogLevel

/-- The name of a level. -/
def name : LogLevel → String
  | .warn => "WARN"
  | .info => "INFO"
  | .debug => "DEBUG"

/-- The position of a level; a more important one comes first. -/
def rank : LogLevel → Nat
  | .warn => 0
  | .info => 1
  | .debug => 2

/-- Whether records of this level are kept when everything up to `limit` is wanted. -/
def within (level limit : LogLevel) : Bool :=
  level.rank ≤ limit.rank

end LogLevel

/-- One log record. -/
structure LogRecord where
  level : LogLevel
  text : String
  deriving DecidableEq, Repr, Inhabited

/-- Something that happens during a run, in order: a log record or text for the user. -/
inductive Event where
  | log (record : LogRecord)
  | output (text : String)
  deriving DecidableEq, Repr

namespace Event

/-- A log record at the level for developers. -/
def debug (text : String) : Event := .log ⟨.debug, text⟩

/-- A log record at the level for interested users. -/
def info (text : String) : Event := .log ⟨.info, text⟩

/-- A log record at the level for all users. -/
def warn (text : String) : Event := .log ⟨.warn, text⟩

/-- The text that was written for the user. -/
def outputs (events : List Event) : String :=
  String.join (events.filterMap fun
    | .output text => some text
    | .log _ => none)

/-- The log records up to a level. -/
def records (limit : LogLevel) (events : List Event) : List LogRecord :=
  events.filterMap fun
    | .log r => if r.level.within limit then some r else none
    | .output _ => none

end Event

end InstallScript
