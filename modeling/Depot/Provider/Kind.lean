/-
Kinds of resources. A model describes the configurations of one type of
resource: how they are read and written, which of them go together, how
several become one and what makes one unusable. A kind is what a provider
needs of that; everything else that the provider does follows from it.

Merged requests are read, checked against each other pair by pair, and
merged; the result is written back as a plain configuration, which reads
as what it was. A request on its own is left as it is.
-/
import Depot.Provider.Basic
import Depot.Value.Entries

namespace Depot

/-- A model of the configurations of one type of resource: how they are
read, shown and written, what makes one unusable, which of them go
together and how several become one. -/
structure Model (C : Type) where
  id : String
  type : String
  /-- How many requests one resource may serve. -/
  limit : Int
  read : Entries → Reading C
  /-- Every field, set or not. -/
  describe : C → Fields
  /-- Only what is set. -/
  write : C → Fields
  check : C → Verdict
  canMerge : C → C → Bool
  merge : List C → Except Fault C

namespace Model

variable {C : Type}

/-- The configuration that a value describes: a mapping, or a list of
pairs. -/
def ofValue (m : Model C) (v : Value) : Except Fault C := do
  (m.read (← v.toEntries)).toExcept

/-- One request's configuration, read for a merge. -/
def readForMerge (m : Model C) (r : Requirement) : Except Fault C :=
  match m.read (.ofFields r.config) with
  | .ok c => .ok c
  | .wrong issues =>
      .error (.merge s!"Invalid {m.type} config for \"{r.resourceKey}\"" [.object r.config]
        [("errors", .texts (issues.map FieldIssue.line)), ("provider_id", .str m.id)])

/-- The first pair of configurations that do not go together, by
position. -/
def firstClash? (canMerge : C → C → Bool) : List (C × Nat) → Option (Nat × Nat)
  | [] => none
  | (c, i) :: rest =>
      match rest.find? fun (d, _) => !canMerge c d with
      | some (_, j) => some (i, j)
      | none => firstClash? canMerge rest

/-- The configurations of requests read, held against each other and
merged. -/
def mergeGroup (m : Model C) (requirements : List Requirement) : Except Fault C := do
  let configs ← requirements.mapM m.readForMerge
  match firstClash? m.canMerge configs.zipIdx with
  | some (i, j) =>
      let clashing := [i, j].filterMap fun n => requirements[n]?.map fun r => Value.object r.config
      let of := (requirements.head?.map Requirement.type).getD .null
      throw (.incompatibleConfigs of (.str s!"requirements {i} and {j} are incompatible") clashing)
  | none => m.merge configs

end Model

/-- A kind of resource whose configurations are of type `C`. -/
structure Kind (σ C : Type) where
  id : Value
  type : Value
  types : List Value
  /-- How many requests one resource may serve; null if there is no limit. -/
  limit : Value := .null
  read : Fields → Except Fault C
  write : C → Fields
  check : C → Except Fault Verdict
  /-- The requests of a group as one configuration, with what there is to
  report. -/
  mergeGroup : List Requirement → Except Fault C × Journal
  make : String → C → Provisioning → SiteWork σ Resource

namespace Kind

variable {σ C : Type}

-- ============================================================ merging

/-- Several requests as one. -/
def mergeRequests (k : Kind σ C) : List (Request σ) → Work σ (Request σ)
  | [] => throw (.merge "Cannot merge empty requirements list" [] [("provider_id", k.id)])
  | [only] => return only
  | first :: rest => do
      let group : List Requirement := (first :: rest).map Request.toRequirement
      let count : Int := group.length
      let isOver ← Work.ofExcept (if k.limit.isNull then .ok false
        else Value.compare .above (.int count) k.limit)
      if isOver then throw (.limitExceeded k.type k.limit (.int count))
      match group.find? fun r => !r.type.same first.type with
      | some other =>
          let types := s!"{first.type.label} and {other.type.label}"
          throw (.incompatibleConfigs first.type (.str s!"mixed resource types {types}"))
      | none => pure ()
      let config ← Work.ofReported (k.mergeGroup group)
      let verdict ← Work.ofExcept (k.check config)
      if !verdict.valid then
        throw (.merge s!"Merged configuration for \"{first.resourceKey}\" is invalid"
          (group.map fun r => .object r.config)
          [("errors", .list verdict.errors), ("provider_id", k.id)])
      let priority ← Work.ofExcept (Value.greatest (group.map Requirement.effectivePriority))
      let result ← Work.ofExcept
        (Requirement.make first.type first.key (.object (k.write config)) priority
          first.provenance)
      return ⟨result, []⟩

-- ========================================================== providing

/-- The verdict on a requirement's configuration. -/
def validateMerged (k : Kind σ C) (r : Requirement) : Except Fault Verdict :=
  match k.read r.config with
  | .ok config => k.check config
  | .error (.rejected issues) => .ok (.failed (issues.map fun i => .str i.line))
  | .error fault => .error fault

/-- A handle on a resource under a new child scope. -/
def handle (type : Value) (write : C → Fields) (name : String) (config : C) (p : Provisioning) :
    SiteWork σ Resource := do
  let fields := write config
  let scope ← SiteWork.createChild (.str name)
  return .handle ⟨name, type, fields, scope, ← SiteWork.ofExcept p.tags.toFields,
    (Fields.getD fields "location").orElse p.location, p.environment⟩

/-- The resource for a requirement: the one that is there already, or a
new one. -/
def provide (k : Kind σ C) (r : Requirement) (p : Provisioning) : SiteWork σ Resource := do
  match p.existing.lookup r.resourceKey with
  | some existing => if !existing.isNull then return existing
  | none => pure ()
  let verdict ← SiteWork.ofExcept (k.validateMerged r)
  if !verdict.valid then
    throw (.provisioning s!"Configuration validation failed for \"{r.resourceKey}\"" r.type
      (.str r.resourceKey) [("errors", .list verdict.errors)])
  SiteWork.report (verdict.warnings.map fun w => ⟨.warning, "provider_config_warning",
    [("provider_id", k.id), ("resource_key", .str r.resourceKey), ("warning", w)]⟩)
  let config ← SiteWork.ofExcept (k.read r.config)
  let name ← SiteWork.ofExcept (p.naming.resourceName r.type p.backendId r.key)
  let resource ← SiteWork.rephrase
    (Fault.orPut fun fault => .provisioningFailure r.type r.key (.str fault.reason))
    (k.make name config p)
  SiteWork.report [⟨.debug, "resource_provisioned", [("provider_id", k.id),
    ("resource_key", .str r.resourceKey), ("name", .str name)]⟩]
  return resource

/-- A configuration model as a kind of resource. -/
def ofModel (m : Model C) : Kind σ C where
  id := .str m.id
  type := .str m.type
  types := [.str m.type]
  limit := .int m.limit
  read fs := (m.read (.ofFields fs)).toExcept
  write := m.write
  check c := .ok (m.check c)
  mergeGroup rs := (m.mergeGroup rs, [])
  make := handle (.str m.type) m.write

/-- The provider of a kind of resource. -/
def provider (k : Kind σ C) : Provider σ where
  id := some k.id
  types := .list k.types
  canProvide r := return r.type.isAmong k.types
  merge := k.mergeRequests
  validateMerged r := Work.ofExcept (k.validateMerged r)
  provide := k.provide

end Kind

end Depot
