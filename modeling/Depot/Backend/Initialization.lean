/-
Initialising a backend: collect, validate, merge, provision, initialise
the components. A phase that fails ends it, and the failure names the
phase and keeps the fault that brought it about. Quotas are checked
before the first resource is provisioned, each merged requirement is
provisioned once, and every component gets the same finished resources.
-/
import Depot.Backend.Preparation

namespace Depot.Backend

variable {σ : Type}

-- ============================================================== quotas

/-- Fails if there are more resources of a capped type than its quota
allows. -/
def checkAccounts (limits : Limits) (requirements : List Requirement) : Except Fault Unit := do
  for (type, group) in ← Requirement.groupByType (fun r => r) requirements do
    match limits.accountLimit type with
    | some limit =>
        if limit < group.length then
          throw (.limitExceeded type (.int limit) (.int group.length))
    | none => pure ()

/-- Fails if a function app serves more requests than its quota
allows. -/
def checkApps (limits : Limits) (groups : List (String × List (Request σ))) :
    Except Fault Unit := do
  match limits.functionsPerApp with
  | none => pure ()
  | some limit =>
      for (key, group) in groups do
        let type := (group.head?.map fun r => r.type).getD .null
        if type.same (.str "functions") && limit < group.length then
          throw (.limitExceeded (.str key) (.int limit) (.int group.length))

/-- Fails if a storage account has more containers than its quota
allows. -/
def checkContainers (limits : Limits) (requirements : List Requirement) : Except Fault Unit := do
  match limits.containersPerStorage with
  | none => pure ()
  | some limit =>
      for r in requirements do
        if r.type.same (.str "storage") then
          let count ← ((Fields.getD r.config "containers").orElse (.list [])).length
          if limit < count then
            throw (.limitExceeded (.str r.resourceKey) (.int limit) (.int count))

/-- Fails if a quota would be exceeded. -/
def checkLimits (b : Backend σ) (merged : List (Request σ))
    (groups : List (String × List (Request σ))) : Except Fault Unit := do
  let requirements := merged.map Request.toRequirement
  checkAccounts b.config.limits requirements
  checkApps b.config.limits groups
  checkContainers b.config.limits requirements

-- ======================================================== provisioning

/-- What providers may read while they make resources. -/
def provisioning (b : Backend σ) (settings : Except Fault Settings) :
    Except Fault Provisioning := do
  let environment ← b.config.environmentOr settings
  let location ← b.config.locationOr settings
  return {
    backendId := b.id
    naming := b.config.namingConvention
    tags := .object (Fields.putAll [("environment", .str environment)] b.config.tags)
    location := .str location
    environment := .str environment
    limits := b.config.limits }

/-- The resources with the one for one more requirement. -/
def provisionOne (b : Backend σ) (context : Provisioning) (staged : Resources) (r : Requirement) :
    SiteWork σ Resources := do
  let provider ← SiteWork.ofWork (b.registry.find r)
  let verdict ← SiteWork.ofWork (provider.validateMerged r)
  if !verdict.valid then
    let list ← SiteWork.ofExcept (Value.joinTexts ", " verdict.errors)
    throw (.provisioning s!"Requirement \"{r.resourceKey}\" failed validation: {list}" r.type
      (.str r.resourceKey) [("errors", .list verdict.errors)])
  let why := Fault.orPut fun fault => .provisioningFailure r.type r.key (.str fault.reason)
  let resource ← SiteWork.rephrase why (provider.provide r { context with existing := staged })
  SiteWork.report [b.event .info "backend_resource_provisioned"
    [("resource_key", .str r.resourceKey), ("provider_id", provider.id.getD .null)]]
  return Table.put r.resourceKey resource staged

/-- The resources for all merged requirements. -/
def provisionAll (b : Backend σ) (settings : Except Fault Settings) (merged : List (Request σ))
    (groups : List (String × List (Request σ))) : SiteWork σ Resources := do
  SiteWork.ofExcept (b.checkLimits merged groups)
  let context ← SiteWork.ofExcept (b.provisioning settings)
  (merged.map Request.toRequirement).foldlM (b.provisionOne context) []

-- ========================================================== components

/-- A component made for real and initialised with the resources. -/
def startOne (b : Backend σ) (resources : Resources) (entry : Value × Definition σ) :
    SiteWork σ (Value × Component σ) := do
  let (id, definition) := entry
  let why := Fault.orPut fun fault => .component
    s!"Failed to initialize component \"{id.label}\": {fault.reason}" id
  let component ← SiteWork.rephrase why do
    (← definition.create (.resources resources)).activate (.resources resources)
  SiteWork.report [b.event .debug "component_initialized" [("component_id", id)]]
  return (id, component)

-- ============================================================== phases

/-- The work of a phase. A fault in it is reported and becomes the cause
of a failed initialisation. -/
def inPhase {α : Type} (b : Backend σ) (phase : Phase) (work : SiteWork σ α) : SiteWork σ α :=
  ExceptT.mk do
    let entered := b.event .debug "backend_phase_started" [("phase", .str phase.name)]
    modify fun s => { s with journal := s.journal ++ [entered] }
    match ← work.run with
    | .ok a => return .ok a
    | .error fault =>
        let failed := Event.initializationFailed b.id (.str phase.name) fault
        modify fun s => { s with journal := s.journal ++ [failed] }
        return .error (.initializationFailure b.id (.str phase.name) fault)

/-- What an initialisation publishes. -/
structure Published (σ : Type) where
  resources : Resources
  components : Keyed (Component σ)

/-- All phases in order. -/
def runPhases (b : Backend σ) (settings : Except Fault Settings) : SiteWork σ (Published σ) := do
  let requests ← b.inPhase .collect do
    let mark ← SiteWork.ofExcept (b.mark settings)
    SiteWork.mark mark
    SiteWork.ofWork (b.collect mark)
  b.inPhase .validate (SiteWork.ofWork (b.checkRequests requests))
  let merged ← b.inPhase .merge (SiteWork.ofWork (b.mergeGroups requests))
  let resources ← b.inPhase .provision (b.provisionAll settings merged (groups requests))
  let components ← b.inPhase .initializeComponents (b.definitions.mapM (b.startOne resources))
  return ⟨resources, components⟩

/-- The fault of initialising a backend that is no longer collecting. -/
def notCollecting (b : Backend σ) : Option Fault :=
  let refuse := fun (why : String) => some (Fault.initialization why b.id (.str "state"))
  match b.state with
  | .collecting => none
  | .initialized => refuse s!"Backend \"{b.id.label}\" has already been initialized"
  | .failed => refuse s!"Backend \"{b.id.label}\" failed to initialize and cannot be reused"

/-- What an initialisation amounted to. -/
structure Summary where
  backendId : Value
  componentIds : List Value
  resourceKeys : List String
  deriving DecidableEq

/-- The summary as a mapping, with how many components and resources
there are. -/
def Summary.toFields (s : Summary) : Fields :=
  [("backend_id", s.backendId), ("component_ids", .list s.componentIds),
    ("resource_keys", .texts s.resourceKeys),
    ("counts", .list [.int s.componentIds.length, .int s.resourceKeys.length])]

/-- Initialises the backend under a scope. The backend afterwards is
initialised or failed, unless it was one of these already. -/
def start (b : Backend σ) (settings : Except Fault Settings) :
    StateM (Site σ) (Except Fault Summary × Backend σ) := do
  match b.notCollecting with
  | some fault => return (.error fault, b)
  | none =>
      let started := b.event .info "backend_initialization_started"
        [("components", .int b.definitions.length)]
      modify fun s => { s with journal := s.journal ++ [started] }
      match ← (b.runPhases settings).run with
      | .error fault => return (.error fault, { b with state := .failed })
      | .ok published =>
          let done := b.event .info "backend_initialized"
            [("components", .int published.components.length),
              ("resources", .int published.resources.length)]
          modify fun s => { s with journal := s.journal ++ [done] }
          return (.ok ⟨b.id, published.components.keys, published.resources.keys⟩,
            { b with
              state := .initialized
              resources := published.resources
              components := published.components })

end Depot.Backend
