import TwinSchema.Text.Quoted
import TwinSchema.Text.UpperCase

/-!
# Log levels

How much is logged. Settings choose among five levels; a logger takes any
number, or one of a few more names.
-/

namespace TwinSchema

inductive LogLevel where
  | debug
  | info
  | warning
  | error
  | critical
  deriving DecidableEq, Repr

namespace LogLevel

def name : LogLevel → String
  | .debug => "DEBUG"
  | .info => "INFO"
  | .warning => "WARNING"
  | .error => "ERROR"
  | .critical => "CRITICAL"

def severity : LogLevel → Int
  | .debug => 10
  | .info => 20
  | .warning => 30
  | .error => 40
  | .critical => 50

/-- Every level, from the least severe on. -/
def all : List LogLevel := [.debug, .info, .warning, .error, .critical]

/-- The level with a given name, in any case of letters. -/
def ofName? (name : String) : Option LogLevel :=
  all.find? fun level => level.name == Text.upperCased name

end LogLevel

/-- The severity that a name in upper case stands for. -/
def namedSeverity? : String → Option Int
  | "CRITICAL" | "FATAL" => some 50
  | "ERROR" => some 40
  | "WARNING" | "WARN" => some 30
  | "INFO" => some 20
  | "DEBUG" => some 10
  | "NOTSET" => some 0
  | _ => none

/-- What a logger can be set to: a name or a number. -/
inductive LevelChoice where
  | name (name : String)
  | number (severity : Int)
  deriving DecidableEq, Repr

/-- A logger: the severity from which on it logs, and how many handlers it has.
-/
structure Logger where
  level : Int := 0
  handlers : Nat := 0
  deriving DecidableEq, Repr

namespace Logger

/-- The name of the only logger there is. -/
def name : String := "schema_bridge"

/-- The wording for a level that no name stands for. -/
def unknownLevel (name : String) : String :=
  "Unknown level: " ++ Text.display ("Level " ++ Text.upperCased name)

/-- Sets the level, and adds a handler to a logger without one. A name that
stands for no level leaves the logger as it is. -/
def configure (logger : Logger) (choice : LevelChoice) :
    Except String Logger :=
  let level :=
    match choice with
    | .number severity => some severity
    | .name name => namedSeverity? (Text.upperCased name)
  match level, choice with
  | some level, _ => .ok { level, handlers := max logger.handlers 1 }
  | none, .name name => .error (unknownLevel name)
  | none, .number _ => .ok logger

end Logger

end TwinSchema
