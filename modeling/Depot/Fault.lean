/-
Everything that can go wrong, as data. A `failure` belongs to one of the
areas of the library and carries a message, details for programs to
branch on and, where another fault brought it about, that fault. The
other constructors are faults of plain values: a value of the wrong
kind, a missing position, fields that a configuration model rejects.

The constructors by area put their own details over those handed in, so
that the details always agree with the fault. Each named cause has its
wording in one place.
-/
import Depot.Value.Text

namespace Depot

/-- The areas of the library that a failure can belong to. -/
inductive ErrorKind where
  | backend
  | component
  | requirement
  | provider
  | provisioning
  | validation
  | merge
  | resourceLimit
  | configuration
  | initialization
  deriving DecidableEq

namespace ErrorKind

/-- The name of the error type of an area. -/
def name : ErrorKind → String
  | .backend => "BackplaneError"
  | .component => "ComponentError"
  | .requirement => "RequirementError"
  | .provider => "ProviderError"
  | .provisioning => "ProvisioningError"
  | .validation => "ValidationError"
  | .merge => "MergeError"
  | .resourceLimit => "ResourceLimitError"
  | .configuration => "ConfigurationError"
  | .initialization => "InitializationError"

/-- The code that programs branch on. -/
def code : ErrorKind → String
  | .backend => "BACKEND_ERROR"
  | .component => "COMPONENT_ERROR"
  | .requirement => "REQUIREMENT_ERROR"
  | .provider => "PROVIDER_ERROR"
  | .provisioning => "PROVISIONING_ERROR"
  | .validation => "VALIDATION_ERROR"
  | .merge => "MERGE_ERROR"
  | .resourceLimit => "RESOURCE_LIMIT_ERROR"
  | .configuration => "CONFIGURATION_ERROR"
  | .initialization => "INITIALIZATION_ERROR"

/-- All areas. -/
def all : List ErrorKind :=
  [.backend, .component, .requirement, .provider, .provisioning, .validation, .merge,
    .resourceLimit, .configuration, .initialization]

/-- The area whose error type has a name. -/
def ofName? (name : String) : Option ErrorKind := all.find? fun kind => kind.name = name

/-- The names of the details that a failure of an area sets itself. -/
def ownDetails : ErrorKind → List String
  | .component => ["component_id"]
  | .requirement => ["resource_type", "requirement_key"]
  | .provider => ["provider_id"]
  | .provisioning => ["resource_type", "resource_key"]
  | .validation => ["errors", "warnings"]
  | .resourceLimit => ["resource_type", "limit", "current"]
  | .initialization => ["backend_id", "phase"]
  | .backend | .merge | .configuration => []

end ErrorKind

/-- One field that a configuration model rejects: the way to it, outermost
step first, and what is wrong with it. -/
structure FieldIssue where
  path : List String
  message : String
  deriving DecidableEq

/-- An issue as one line of text; an issue of the whole configuration is
named for it. -/
def FieldIssue.line (issue : FieldIssue) : String :=
  let place := ".".intercalate issue.path
  (if place = "" then "config" else place) ++ ": " ++ issue.message

/-- A fault. -/
inductive Fault where
  /-- A failure of one of the library's areas. `configs` are the
  configurations that could not be merged. -/
  | failure (kind : ErrorKind) (message : String) (details : Fields) (configs : List Value)
      (cause : Option Fault)
  /-- Fields that a configuration model rejects. -/
  | rejected (issues : List FieldIssue)
  /-- A value of the right type that makes no sense where it stands. -/
  | badValue (text : String)
  /-- A collaborator gave up at run time. -/
  | gaveUp (text : String)
  /-- A value of the wrong type. -/
  | badType (text : String)
  /-- A value without the part that is asked of it. -/
  | noAttribute (text : String)
  /-- A position outside a sequence. -/
  | noPosition (text : String)
  /-- A name that is not known. -/
  | noEntry (text : String)
  /-- A failure outside the library, known by the name of its type. -/
  | system (name text : String)
  /-- Names in a variable file that are no settings. `report` is the text of
  the failure. -/
  | unknownSettings (issues : List FieldIssue) (report : String)
  deriving Inhabited

namespace Fault

/-- The name of the fault's type. -/
def typeName : Fault → String
  | .failure kind .. => kind.name
  | .rejected _ | .unknownSettings .. => "ValidationError"
  | .system name _ => name
  | .badValue _ => "ValueError"
  | .gaveUp _ => "RuntimeError"
  | .badType _ => "TypeError"
  | .noAttribute _ => "AttributeError"
  | .noPosition _ => "IndexError"
  | .noEntry _ => "KeyError"

/-- What the fault says. -/
def reason : Fault → String
  | .failure _ message .. => message
  | .rejected issues => "\n".intercalate (issues.map FieldIssue.line)
  | .badValue text | .gaveUp text | .badType text | .noAttribute text | .noPosition text
  | .noEntry text | .system _ text | .unknownSettings _ text => text

/-- The area that a failure belongs to. -/
def kind? : Fault → Option ErrorKind
  | .failure kind .. => some kind
  | _ => none

/-- Whether the fault is a failure of one of the library's areas. -/
def isFailure : Fault → Bool
  | .failure .. => true
  | _ => false

/-- The details of a failure. -/
def details : Fault → Fields
  | .failure _ _ details _ _ => details
  | _ => []

/-- The configurations that could not be merged. -/
def configs : Fault → List Value
  | .failure _ _ _ configs _ => configs
  | _ => []

/-- The fault that brought a failure about. -/
def cause? : Fault → Option Fault
  | .failure _ _ _ _ cause => cause
  | _ => none

/-- Whether a merge that meets the fault at one property drops the
property and goes on. -/
def isDroppable : Fault → Bool
  | .badType _ | .badValue _ | .rejected _ | .unknownSettings .. => true
  | _ => false

-- ====================================================== areas' faults

/-- A failure with details of its own set over those handed in. -/
def ofKind (kind : ErrorKind) (message : String) (details own : Fields) : Fault :=
  .failure kind message (Fields.putAll details own) [] none

/-- A bad, repeated or missing component. -/
def component (message : String) (id : Value := .null) (details : Fields := []) : Fault :=
  ofKind .component message details [("component_id", id)]

/-- A malformed requirement. -/
def requirement (message : String) (type : Value := .null) (key : Value := .null)
    (details : Fields := []) : Fault :=
  ofKind .requirement message details [("resource_type", type), ("requirement_key", key)]

/-- A missing or failing provider. -/
def provider (message : String) (id : Value := .null) (details : Fields := []) : Fault :=
  ofKind .provider message details [("provider_id", id)]

/-- A resource that could not be created. -/
def provisioning (message : String) (type : Value := .null) (key : Value := .null)
    (details : Fields := []) : Fault :=
  ofKind .provisioning message details [("resource_type", type), ("resource_key", key)]

/-- A failed check, with every error and not just the first. -/
def validation (message : String) (errors warnings : List Value) (details : Fields := []) :
    Fault :=
  ofKind .validation message details [("errors", .list errors), ("warnings", .list warnings)]

/-- Configurations that cannot be merged. -/
def merge (message : String) (configs : List Value := []) (details : Fields := []) : Fault :=
  .failure .merge message details configs none

/-- A quota that would be exceeded. -/
def resourceLimit (message : String) (type limit current : Value) (details : Fields := []) :
    Fault :=
  ofKind .resourceLimit message details
    [("resource_type", type), ("limit", limit), ("current", current)]

/-- An unreadable or invalid backend configuration. -/
def configuration (message : String) (details : Fields := []) : Fault :=
  ofKind .configuration message details []

/-- A backend that could not be initialised, with the fault that stopped
it. -/
def initialization (message : String) (backendId phase : Value := .null)
    (cause : Option Fault := none) (details : Fields := []) : Fault :=
  let own : Fields := [("backend_id", backendId), ("phase", phase)]
  let code : Fields := match cause with
    | some (.failure kind ..) => [("cause_code", .str kind.code)]
    | _ => []
  .failure .initialization message (Fields.putAll details (own ++ code)) [] cause

-- ======================================================= named causes

/-- A component id that the backend already has. -/
def duplicateComponent (id backendId : Value) : Fault :=
  component s!"Component with ID \"{id.label}\" already exists in backend \"{backendId.label}\""
    id [("backend_id", backendId)]

/-- A component id that the backend does not have. -/
def componentNotFound (id backendId : Value) : Fault :=
  component s!"Component \"{id.label}\" not found in backend \"{backendId.label}\""
    id [("backend_id", backendId)]

/-- A requirement that is not well formed. -/
def invalidRequirement (why : String) (type : Value := .null) (key : Value := .null) : Fault :=
  requirement s!"Invalid requirement: {why}" type key

/-- A resource type that no provider supplies. -/
def missingProvider (type : Value) : Fault :=
  let message := s!"No provider found for resource type \"{type.label}\". " ++
    "Register a custom provider or ensure the resource type is supported."
  provider message .null [("resource_type", type)]

/-- A provider that failed at one of its operations. -/
def providerFailure (id operation why : Value) : Fault :=
  provider s!"Provider \"{id.label}\" failed during {operation.label}: {why.label}"
    id [("operation", operation), ("reason", why)]

/-- A resource whose creation failed. -/
def provisioningFailure (type key why : Value) : Fault :=
  let resourceKey := s!"{type.label}:{key.label}"
  provisioning s!"Failed to provision resource \"{resourceKey}\": {why.label}"
    type (.str resourceKey) [("reason", why)]

/-- A check that found errors. -/
def validationFailure (errors warnings : List Value) : Fault :=
  validation s!"Validation failed with {errors.length} error(s)" errors warnings

/-- Configurations of one type that do not go together. -/
def incompatibleConfigs (type why : Value) (configs : List Value := []) : Fault :=
  merge s!"Cannot merge configurations for \"{type.label}\": {why.label}"
    configs [("resource_type", type), ("reason", why)]

/-- More of a resource than its quota allows. -/
def limitExceeded (type limit current : Value) : Fault :=
  let counts := s!"Maximum: {limit.label}, Current: {current.label}"
  resourceLimit s!"Resource limit exceeded for \"{type.label}\". {counts}" type limit current

/-- A backend whose initialisation stopped in a phase. -/
def initializationFailure (backendId phase : Value) (cause : Fault) : Fault :=
  let who := s!"Backend \"{backendId.label}\" failed to initialize"
  initialization s!"{who} during {phase.label}: {cause.reason}" backendId phase (some cause)
    [("reason", .str cause.reason)]

-- ============================================================ display

/-- An issue as the pair of its place and its message. -/
def issueValue (i : FieldIssue) : Value := .texts [".".intercalate i.path, i.message]

mutual
/-- The fault as a mapping, under the name that `nameOf` gives it. Faults
of type, of a missing part, position or name and those outside the
library show nothing else: their texts are meant for people. -/
def toFields (nameOf : Fault → String) : Fault → Fields
  | .failure kind message details configs cause =>
      [("error", .str (nameOf (.failure kind message details configs cause))),
        ("code", .str kind.code), ("message", .str message), ("details", .object details)] ++
      (if kind = .merge then [("conflicting_configs", .list configs)] else []) ++
      (if kind = .initialization then [("cause", causeValue nameOf cause)] else [])
  | .rejected issues =>
      [("error", .str (nameOf (.rejected issues))), ("errors", .list (issues.map issueValue))]
  | .badValue text => [("error", .str (nameOf (.badValue text))), ("message", .str text)]
  | .gaveUp text => [("error", .str (nameOf (.gaveUp text))), ("message", .str text)]
  | .badType text => [("error", .str (nameOf (.badType text)))]
  | .noAttribute text => [("error", .str (nameOf (.noAttribute text)))]
  | .noPosition text => [("error", .str (nameOf (.noPosition text)))]
  | .noEntry text => [("error", .str (nameOf (.noEntry text)))]
  | .system name text => [("error", .str (nameOf (.system name text)))]
  | .unknownSettings issues report =>
      [("error", .str (nameOf (.unknownSettings issues report))),
        ("errors", .list (issues.map issueValue))]
/-- The cause of a failure as a value; null if there is none. -/
def causeValue (nameOf : Fault → String) : Option Fault → Value
  | some cause => .object (toFields nameOf cause)
  | none => .null
end

/-- The message of a failure followed by those of its details that are
given. -/
def explain (fault : Fault) : String :=
  match fault.details.filter fun (_, v) => !v.isNull with
  | [] => fault.reason
  | shown =>
      let parts := shown.map fun (k, v) => s!"{k}={v.label}"
      let list := ", ".intercalate parts
      s!"{fault.reason} ({list})"

end Fault

end Depot
