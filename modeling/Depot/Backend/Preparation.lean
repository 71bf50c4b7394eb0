/-
What comes before anything is provisioned: collecting the requirements
of all components, asking their validators, merging those for the same
resource. None of this touches the caller's scope, and none of it
changes the backend; so a plan can go through all of it as well.

Requirements are collected from components made for the purpose, each
under a scope of its own in an arena that is thrown away.
-/
import Depot.Backend.Basic
import Depot.Backend.Plan
import Depot.Requirement.Grouping

namespace Depot.Backend

variable {σ : Type}

/-- A journal entry about the backend. -/
def event (b : Backend σ) (level : Level) (name : String) (fields : Fields) : Event :=
  ⟨level, name, ("backend_id", b.id) :: fields⟩

/-- The mark of the backend on scopes. -/
def mark (b : Backend σ) (settings : Except Fault Settings) : Except Fault BackendMark := do
  return ⟨b.id, .str (← b.config.environmentOr settings)⟩

-- ========================================================== collecting

/-- What a component requires, with its id as the source where it names
none. The component is made under a new scope of the arena, which shows
two ids that read alike. -/
def collectOne (b : Backend σ) (mark : BackendMark) (arena : Scope)
    (entry : Value × Definition σ) : Work σ (List (Request σ) × Scope) := do
  let (id, definition) := entry
  let name := .str s!"temp-{id.label}"
  let arena ← Work.ofExcept (arena.create name)
  let scope := (arena.child? name).getD arena
  let why := Fault.orPut fun fault => .component
    s!"Failed to collect requirements from component \"{id.label}\": {fault.reason}" id
  let declared ← Work.rephrase why (Work.inScope (scope.mark mark) definition.declared)
  let requests ← Work.ofExcept (declared.mapM fun r => r.withSource id)
  Work.report [b.event .debug "requirements_collected"
    [("component_id", id), ("count", .int declared.length)]]
  return (requests, arena)

/-- What several components require, one after the other. -/
def collectFrom (b : Backend σ) (mark : BackendMark) (arena : Scope) :
    Keyed (Definition σ) → Work σ (List (Request σ))
  | [] => return []
  | entry :: rest => do
      let (requests, arena) ← b.collectOne mark arena entry
      return requests ++ (← b.collectFrom mark arena rest)

/-- The first requirement whose key differs from an earlier one's only by
case, with that earlier key. `seen` holds keys in small letters beside
the keys themselves. -/
def firstCollision? (seen : Table String) : List Requirement → Option (String × Requirement)
  | [] => none
  | r :: rest =>
      let key := r.resourceKey
      let folded := lowerCase key
      match seen.lookup folded with
      | none => firstCollision? (seen ++ [(folded, key)]) rest
      | some other => if other = key then firstCollision? seen rest else some (other, r)

/-- Fails if two keys differ only by case: their resources would get one
name. -/
def checkCollisions (requirements : List Requirement) : Except Fault Unit :=
  match firstCollision? [] requirements with
  | none => .ok ()
  | some (other, r) =>
      .error (.requirement s!"Resource keys \"{other}\" and \"{r.resourceKey}\" differ only by case"
        r.type r.key [("colliding_keys", .texts [other, r.resourceKey])])

/-- What all components require. -/
def collect (b : Backend σ) (mark : BackendMark) : Work σ (List (Request σ)) := do
  let arena ← Work.ofExcept (Scope.root (.str s!"{b.id.label}-collect"))
  let requests ← b.collectFrom mark arena b.definitions
  Work.ofExcept (checkCollisions (requests.map Request.toRequirement))
  return requests

-- ========================================================== validating

/-- What the validators of one request have to say, each message under
the name of the resource and the validator. -/
def askValidators (surroundings : Surroundings) (r : Request σ) :
    Work σ (List String × List String) := do
  let found ← r.validators.mapM fun v => do
    let verdict ← v.validate r.toRequirement surroundings
    let place := s!"{r.resourceKey} [{v.name.label}]"
    return (verdict.errors.map fun e => s!"{place}: {e.label}",
      verdict.warnings.map fun w => s!"{place}: {w.label}")
  return (found.flatMap Prod.fst, found.flatMap Prod.snd)

/-- The verdict of all validators. -/
def runValidators (b : Backend σ) (requests : List (Request σ)) : Work σ Verdict := do
  let surroundings := ⟨requests.map Request.toRequirement, b.config.toProfile⟩
  let found ← requests.mapM (askValidators surroundings)
  return .ofTexts (found.flatMap Prod.fst) (found.flatMap Prod.snd)

/-- Fails unless every requirement has a provider and all validators
agree. -/
def checkRequests (b : Backend σ) (requests : List (Request σ)) : Work σ Unit := do
  let coverage ← b.registry.coverage (requests.map Request.toRequirement)
  if !coverage.valid then
    let list ← Work.ofExcept (Value.joinTexts ", " coverage.missing)
    throw (.provider s!"Cannot satisfy all requirements. Missing providers for types: {list}"
      .null [("missing_types", .list coverage.missing)])
  let verdict ← b.runValidators requests
  Work.report (verdict.warnings.map fun w =>
    b.event .warning "requirement_warning" [("warning", w)])
  Work.ofExcept verdict.raiseForErrors

-- ============================================================= merging

/-- The requests by the resource that they are for. -/
def groups (requests : List (Request σ)) : List (String × List (Request σ)) :=
  Requirement.groupByResourceKey Request.toRequirement requests

/-- The sources of requests. -/
def sourcesOf (requests : List (Request σ)) : Except Fault (List Value) :=
  requests.mapM fun r => r.provenance.source

/-- The requests of a group as one, by the provider of the first. A
request on its own stays as it is. -/
def mergeGroup (b : Backend σ) (group : String × List (Request σ)) : Work σ (Request σ) := do
  match group.2 with
  | [only] => return only
  | requests => do
      let first ← Work.ofExcept (match requests with
        | first :: _ => .ok first
        | [] => .error (.noPosition "list index out of range"))
      let provider ← b.registry.find first.toRequirement
      let merged ← provider.merge requests
      let verdict ← provider.validateMerged merged.toRequirement
      if !verdict.valid then
        let list ← Work.ofExcept (Value.joinTexts ", " verdict.errors)
        throw (.merge s!"Merged requirement for \"{group.1}\" failed validation: {list}"
          (requests.map fun r => .object r.config)
          [("resource_key", .str group.1), ("errors", .list verdict.errors)])
      let sources ← Work.ofExcept (sourcesOf requests)
      Work.report [b.event .debug "requirements_merged"
        [("resource_key", .str group.1), ("sources", .list sources)]]
      return merged

/-- All requests, those for one resource merged. -/
def mergeGroups (b : Backend σ) (requests : List (Request σ)) : Work σ (List (Request σ)) :=
  (groups requests).mapM b.mergeGroup

-- ============================================================ planning

/-- The plan with one more group merged. -/
def planGroup (b : Backend σ) (plan : Plan σ) (group : String × List (Request σ)) :
    Work σ (Plan σ) := do
  let type := (group.2.head?.map fun r => r.type).getD .null
  if type.isAmong plan.missing then return plan
  match ← (b.mergeGroup group).outcome with
  | .error fault => return plan.recordError .merge fault.reason
  | .ok merged =>
      let sources ← Work.ofExcept (sourcesOf group.2)
      let distinct ← Work.ofExcept (Merge.addSources [] (sources.filter Value.isTruthy))
      return plan.record merged distinct

/-- What the backend would provision. What goes wrong in collecting, in a
validator or in a merge is recorded in the plan. -/
def plan (b : Backend σ) (settings : Except Fault Settings) : Work σ (Plan σ) := do
  let collected := do b.collect (← Work.ofExcept (b.mark settings))
  match ← collected.outcome with
  | .error fault =>
      return ({ backendId := b.id } : Plan σ).recordError .collect fault.reason
  | .ok requests =>
      let coverage ← b.registry.coverage (requests.map Request.toRequirement)
      let start : Plan σ := { backendId := b.id, missing := coverage.missing }
      let checked := match ← (b.runValidators requests).outcome with
        | .error fault => start.recordError .validate fault.reason
        | .ok verdict =>
            { verdict.errors.foldl (fun p e => p.recordError .validate e.label) start with
              warnings := verdict.warnings }
      let plan ← (groups requests).foldlM b.planGroup checked
      Work.report [b.event .debug "backend_planned" [("resources", .int plan.total),
        ("missing_types", .list plan.missing), ("errors", .int plan.errors.length)]]
      return plan

end Depot.Backend
