import CodeSurvey.Json.Basic
import CodeSurvey.Text.Case

/-!
# Log records

What a running survey reports about itself: named events with a level and fields.
-/

namespace CodeSurvey

/-- How grave a record is. -/
inductive LogLevel where
  | debug
  | info
  | warning
  | error
deriving DecidableEq, Repr

namespace LogLevel

/-- Every level, from the least grave. -/
def all : List LogLevel :=
  [debug, info, warning, error]

/-- The name of a level. -/
def name : LogLevel → String
  | debug => "debug"
  | info => "info"
  | warning => "warning"
  | error => "error"

/-- The name under which a level is chosen. -/
def choice : LogLevel → String
  | debug => "DEBUG"
  | info => "INFO"
  | warning => "WARNING"
  | error => "ERROR"

/-- The order of the levels. -/
def rank : LogLevel → Nat
  | debug => 10
  | info => 20
  | warning => 30
  | error => 40

/-- The level of a name in any case; an unknown name means `info`. -/
def ofName (t : Text) : LogLevel :=
  (all.find? fun l => l.choice.toList = Text.upper t).getD info

end LogLevel

/-- A named event with a level and fields. -/
structure LogRecord where
  level : LogLevel
  event : String
  fields : List (String × Json)

namespace LogRecord

/-- The name of the service that every record bears. -/
def service : String := "code-pulse"

/-- A record as a document. -/
def toJson (r : LogRecord) : Json :=
  .obj (r.fields ++ [("event", .str r.event), ("level", .str r.level.name),
    ("service", .str service)])

/-- The records that are at least as grave as a level. -/
def atLeast (level : LogLevel) (l : List LogRecord) : List LogRecord :=
  l.filter fun r => level.rank ≤ r.level.rank

end LogRecord

end CodeSurvey
