/-
A requirement: a component's declared need for a resource that others
may share. Its type and key together name the resource.

Components hand over loosely typed data, and only some of it is checked:
a type and a key must be given and the configuration must be a mapping.
The priority and the provenance are kept as they came.
-/
import Depot.Value.Sequence

namespace Depot

/-- Where a requirement came from. -/
structure Metadata where
  source : Value
  version : Value := .str "1.0"
  description : Value := .null
  deriving DecidableEq

/-- What a requirement says about its origin: nothing, the known fields,
or something unstructured. -/
inductive Provenance where
  | absent
  | known (metadata : Metadata)
  | loose (v : Value)
  deriving DecidableEq

/-- A component's need for a resource. -/
structure Requirement where
  type : Value
  key : Value
  config : Fields
  priority : Value := .null
  provenance : Provenance := .absent
  deriving DecidableEq

/-- The key of a requirement that names none. -/
def defaultRequirementKey : String := "default"

/-- The priority of a requirement that has none. -/
def defaultPriority : Int := 10

namespace Metadata

/-- The metadata as a mapping. -/
def toFields (m : Metadata) : Fields :=
  [("source", m.source), ("version", m.version), ("description", m.description)]

/-- The metadata that a mapping describes. -/
def ofFields (fs : Fields) : Metadata :=
  ⟨(Fields.get? fs "source").getD (.str ""), (Fields.get? fs "version").getD (.str "1.0"),
    Fields.getD fs "description"⟩

/-- The metadata whose fields a mapping gives by name: its source at least,
and nothing that metadata does not have. -/
def ofNamed (fs : Fields) : Except Fault Metadata :=
  let isField := fun (key : String) => ["source", "version", "description"].contains key
  if Fields.has fs "source" && (Fields.keys fs).all isField then .ok (ofFields fs)
  else .error (.badType "metadata was given other fields than it has")

end Metadata

namespace Provenance

/-- The provenance that a value describes. -/
def ofValue : Value → Provenance
  | .null => .absent
  | .object fs => .known (.ofFields fs)
  | v => .loose v

/-- The declared source, null if none is declared. Something
unstructured that counts as given has no source to ask for. -/
def source : Provenance → Except Fault Value
  | .absent => .ok .null
  | .known m => .ok m.source
  | .loose v => if v.isTruthy then .error (v.lacks "source") else .ok .null

/-- The provenance as a value. -/
def toValue : Provenance → Except Fault Value
  | .absent => .ok .null
  | .known m => .ok (.object m.toFields)
  | .loose v => if v.isTruthy then .error (v.lacks "source") else .ok .null

/-- The provenance with a source put in where none is declared. -/
def withSource (id : Value) : Provenance → Except Fault Provenance
  | .absent => .ok (.known ⟨id, .str "1.0", .null⟩)
  | .known m => .ok (.known (if m.source.isTruthy then m else { m with source := id }))
  | .loose v => .error (v.lacks "source")

end Provenance

namespace Requirement

/-- A checked requirement. -/
def make (type key config : Value) (priority : Value := .null)
    (provenance : Provenance := .absent) : Except Fault Requirement :=
  if !type.isTruthy then
    .error (.requirement "Resource requirement must have a resource_type"
      .null (if key.isTruthy then key else .null))
  else if !key.isTruthy then
    .error (.requirement "Resource requirement must have a requirement_key" type .null)
  else match config with
    | .object fs => .ok ⟨type, key, fs, priority, provenance⟩
    | _ => .error (.requirement "Resource requirement config must be a mapping" type key)

/-- The requirement that a mapping describes. -/
def ofFields (fs : Fields) : Except Fault Requirement :=
  make ((Fields.get? fs "resource_type").getD (.str ""))
    ((Fields.get? fs "requirement_key").getD (.str ""))
    ((Fields.get? fs "config").getD (.object []))
    (Fields.getD fs "priority") (.ofValue (Fields.getD fs "metadata"))

/-- The requirement that a component handed over as a plain value. -/
def ofValue : Value → Except Fault Requirement
  | .object fs => ofFields fs
  | v =>
      .error (.invalidRequirement
        s!"expected ResourceRequirement or mapping, got {v.typeName}")

/-- The name of the resource. -/
def resourceKey (r : Requirement) : String := s!"{r.type.label}:{r.key.label}"

/-- The declared source, or a stand-in where there is none. -/
def sourceName (r : Requirement) : Except Fault Value := do
  return (← r.provenance.source).orElse (.str "unknown")

/-- The priority, or the default where it is not set. -/
def effectivePriority (r : Requirement) : Value :=
  match r.priority with
  | .null => .int defaultPriority
  | v => v

/-- The requirement with another configuration. -/
def withConfig (r : Requirement) (config : Value) : Except Fault Requirement :=
  make r.type r.key config r.priority r.provenance

/-- The requirement with known metadata. -/
def withMetadata (r : Requirement) (m : Metadata) : Requirement :=
  { r with provenance := .known m }

/-- The requirement with its source recorded. -/
def withSource (r : Requirement) (id : Value) : Except Fault Requirement := do
  return { r with provenance := ← r.provenance.withSource id }

/-- The requirement as a mapping. -/
def toFields (r : Requirement) : Except Fault Fields := do
  return [("resource_type", r.type), ("requirement_key", r.key), ("config", .object r.config),
    ("priority", r.priority), ("metadata", ← r.provenance.toValue)]

end Requirement

end Depot
