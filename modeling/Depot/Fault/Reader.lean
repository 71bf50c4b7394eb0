/-
Failures described by plain data: the name of the error type, and under
further names the message, the details and what a failure of that type
sets itself. A description that leaves out what is needed, or says what
is not known, is refused.
-/
import Depot.Value.Sequence

namespace Depot.Fault

/-- The arguments that a failure of an area cannot do without. -/
def neededArguments : ErrorKind → List String
  | .validation => ["message", "errors"]
  | .resourceLimit => ["message", "resource_type", "limit", "current"]
  | _ => ["message"]

/-- All arguments that a failure of an area knows. -/
def knownArguments (kind : ErrorKind) : List String :=
  "message" :: "details" :: kind.ownDetails ++
    match kind with
    | .merge => ["conflicting_configs"]
    | .initialization => ["cause"]
    | _ => []

/-- The items of an argument that may be left out. -/
def listArgument (arguments : Fields) (key : String) : Except Fault (List Value) :=
  ((Fields.getD arguments key).orElse (.list [])).iterate

/-- The message that a failure is given; only a text will do. -/
def messageArgument (arguments : Fields) : Except Fault String :=
  match Fields.getD arguments "message" with
  | .str message => .ok message
  | v => .error (.badType s!"the message is of type {v.typeName}")

/-- The details that a failure is given. Details that are no mapping can
be neither joined with the failure's own nor shown. -/
def detailsArgument (kind : ErrorKind) (arguments : Fields) : Except Fault Fields :=
  match Fields.getD arguments "details" with
  | .object fs => .ok fs
  | v =>
      if !v.isTruthy then .ok []
      else if kind.ownDetails.isEmpty then .error (v.lacks "items")
      else .error (.badType s!"the details are of type {v.typeName}")

/-- The cause that a failure is given: of any value other than null its
type is kept. -/
def causeArgument : Value → Option Fault
  | .null => none
  | v => some (.system v.typeName v.label)

/-- The failure of an area that some arguments describe. -/
def ofArguments (kind : ErrorKind) (arguments : Fields) : Except Fault Fault := do
  let keys := Fields.keys arguments
  if !((neededArguments kind).all keys.contains && keys.all (knownArguments kind).contains) then
    throw (.badType s!"the arguments do not fit {kind.name}")
  let value := Fields.getD arguments
  let message ← messageArgument arguments
  let configs ← if kind = .merge then listArgument arguments "conflicting_configs" else .ok []
  let details ← detailsArgument kind arguments
  match kind with
  | .validation =>
      return .validation message (← (value "errors").iterate) (← listArgument arguments "warnings")
        details
  | .merge => return .merge message configs details
  | .initialization =>
      return .initialization message (value "backend_id") (value "phase")
        (causeArgument (value "cause")) details
  | _ => return .ofKind kind message details (kind.ownDetails.map fun key => (key, value key))

/-- The failure that a name and some arguments describe. -/
def ofDescription (name : String) (arguments : Fields) : Except Fault Fault :=
  match ErrorKind.ofName? name with
  | some kind => ofArguments kind arguments
  | none => .error (.badType s!"{name} is no error type")

end Depot.Fault
