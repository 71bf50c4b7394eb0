/-
Log lines. Events at or above a threshold are written as lines of
fields, together with the fields bound for the time being. Thresholds
are numbers; the usual ones have names, large and small letters alike.
-/
import Depot.Config.Settings
import Depot.Journal

namespace Depot

/-- The named thresholds. -/
def thresholds : List (String × Int) := [
  ("NOTSET", 0), ("DEBUG", 10), ("INFO", 20), ("WARN", 30), ("WARNING", 30), ("ERROR", 40),
  ("CRITICAL", 50), ("FATAL", 50)]

/-- How much a level counts against a threshold. -/
def Level.weight : Level → Int
  | .debug => 10
  | .info => 20
  | .warning => 30
  | .error => 40

/-- How log lines are written: from which level on, and with which bound
fields. A level is a number, or a truth value that counts as one. -/
structure LogSetup where
  level : Value
  threshold : Int
  bound : Fields := []
  deriving DecidableEq

namespace LogSetup

/-- The threshold of a name. -/
def thresholdOf (name : String) : Except Fault Int :=
  let upper := upperCase name
  match thresholds.lookup upper with
  | some n => .ok n
  | none =>
      let shown := (Value.str s!"Level {upper}").quotedLabel
      .error (.badValue s!"Unknown level: {shown}")

/-- The setup for the level of a name. -/
def ofName (name : String) : Except Fault LogSetup := do
  let n ← thresholdOf name
  return ⟨.int n, n, []⟩

/-- The setup for a level; without one the settings tell it. -/
def ofLevel (level : Value) (settings : Except Fault Settings) : Except Fault LogSetup :=
  match level with
  | .null => settings.bind fun s => ofName s.logLevel
  | .str name => ofName name
  | .int n => .ok ⟨level, n, []⟩
  | .bool b => .ok ⟨level, if b then 1 else 0, []⟩
  | v => .error (.badType s!"Level not an integer or a valid string: {v.quotedLabel}")

/-- Binds fields to all lines to come. -/
def bindFields (s : LogSetup) (fields : Fields) : LogSetup :=
  { s with bound := Fields.putAll s.bound fields }

/-- Drops the bound fields. -/
def clear (s : LogSetup) : LogSetup := { s with bound := [] }

/-- The names that the fields of an entry must not have: they are taken by
the entry itself. -/
def takenNames : List String := ["event", "self", "method_name"]

/-- The names of fields that are used up before a line is written. -/
def usedNames : List String := ["timestamp", "exc_info", "stack_info"]

/-- The name of a logger in its lines. One without a name is the root. -/
def loggerName (logger : Value) : Except Fault String :=
  match logger.orElse (.str "root") with
  | .str name => .ok name
  | _ => .error (.badType "A logger name must be a string")

/-- The line of an entry, unless it is below the threshold. An entry's own
fields count before bound ones, and an entry may be without an event. -/
def line? (s : LogSetup) (logger : Value) (level : Level) (event : Value) (fields : Fields) :
    Except Fault (Option Fields) := do
  let name ← loggerName logger
  if takenNames.any (Fields.has fields) then
    throw (.badType "got multiple values for an argument")
  if level.weight < s.threshold then return none
  let event := if event.isNull then [] else [("event", event)]
  let line := Fields.putAll s.bound
    (fields ++ event ++ [("level", .str level.name), ("logger", .str name)])
  return some (line.filter fun (key, _) => key ∉ usedNames)

end LogSetup

end Depot
