/-
The journal: what the library reports while it works. An event has a
level, a name and fields; events stand in the order in which they
happened.
-/
import Depot.Fault

namespace Depot

/-- The levels of events. -/
inductive Level where
  | debug
  | info
  | warning
  | error
  deriving DecidableEq

/-- The name of a level. -/
def Level.name : Level → String
  | .debug => "debug"
  | .info => "info"
  | .warning => "warning"
  | .error => "error"

/-- The level of a name. -/
def Level.ofName? : String → Option Level
  | "debug" => some .debug
  | "info" => some .info
  | "warning" => some .warning
  | "error" => some .error
  | _ => none

/-- One entry of the journal. -/
structure Event where
  level : Level
  name : String
  fields : Fields := []
  deriving DecidableEq

/-- The entry as a mapping: its fields with its name and its level. -/
def Event.toFields (e : Event) : Fields :=
  Fields.putAll e.fields [("event", .str e.name), ("log_level", .str e.level.name)]

/-- The entries of a journal in order. -/
abbrev Journal := List Event

/-- The entry about a backend that could not be initialised. -/
def Event.initializationFailed (backendId phase : Value) (cause : Fault) : Event :=
  ⟨.error, "backend_initialization_failed",
    [("backend_id", backendId), ("phase", phase), ("error_type", .str cause.typeName),
      ("message", .str cause.reason)]⟩

end Depot
