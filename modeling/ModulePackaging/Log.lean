import ModulePackaging.Text.Basic

/-!
# Log records

What the program tells while it works: a level, the part that speaks and the words.
-/

namespace ModulePackaging

/-- How much a record matters. -/
inductive LogLevel
  | debug
  | info
  | warning
  | error
  deriving DecidableEq

namespace LogLevel

/-- The name of a level. -/
def name : LogLevel → Text
  | debug => "DEBUG"
  | info => "INFO"
  | warning => "WARNING"
  | error => "ERROR"

/-- The place of a level among all levels. -/
def rank : LogLevel → Nat
  | debug => 0
  | info => 1
  | warning => 2
  | error => 3

end LogLevel

/-- A record of the log. -/
structure LogRecord where
  level : LogLevel
  source : Text
  message : Text

namespace LogRecord

/-- A record on one line. -/
def line (record : LogRecord) : Text :=
  record.level.name ++ " " ++ record.source ++ ": " ++ record.message

/-- Whether a record is shown when all below a level is left out. -/
def reaches (record : LogRecord) (level : LogLevel) : Bool := level.rank ≤ record.level.rank

end LogRecord

end ModulePackaging
