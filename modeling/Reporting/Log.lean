import Reporting.Text.Quoted
import Reporting.Text.UpperCase

/-!
# Log records

Levels are numbers, most of them with a name, and a record is a message at a named level.
-/

namespace Reporting

inductive LogLevel where
  | debug
  | info
  | error
  deriving DecidableEq

def LogLevel.name : LogLevel → String
  | .debug => "DEBUG"
  | .info => "INFO"
  | .error => "ERROR"

structure LogRecord where
  level : LogLevel
  message : String
  deriving DecidableEq

namespace LogLevel

/-- The threshold of a level's name. -/
def threshold? : String → Option Int
  | "NOTSET" => some 0
  | "DEBUG" => some 10
  | "INFO" => some 20
  | "WARN" | "WARNING" => some 30
  | "ERROR" => some 40
  | "CRITICAL" | "FATAL" => some 50
  | _ => none

/-- A level that no threshold is known for. -/
structure Unknown where
  name : String
  deriving DecidableEq

def Unknown.message (unknown : Unknown) : String := "Unknown level: " ++ Text.quoted unknown.name

/-- The threshold of a level's name in any case. -/
def threshold (name : String) : Except Unknown Int :=
  match threshold? (Text.upper name) with
  | some n => .ok n
  | none => .error ⟨Text.upper name⟩

end LogLevel

end Reporting
