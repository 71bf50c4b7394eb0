/-
Backends. A backend collects definitions of components and a registry of
providers; once initialised it holds the resources that the components
share and the components themselves.

The state of a backend moves forward only: from collecting to
initialised or to failed. Definitions can be added only while it
collects. Resources and components are published together, when an
initialisation has succeeded.
-/
import Depot.Component
import Depot.Config.Basic

namespace Depot

/-- The life of a backend. -/
inductive BackendState where
  | collecting
  | initialized
  | failed
  deriving DecidableEq

/-- The name of a state. -/
def BackendState.name : BackendState → String
  | .collecting => "collecting"
  | .initialized => "initialized"
  | .failed => "failed"

/-- A backend. -/
structure Backend (σ : Type) where
  id : Value
  config : Config σ
  registry : Registry σ := {}
  definitions : Keyed (Definition σ) := []
  state : BackendState := .collecting
  resources : Resources := []
  components : Keyed (Component σ) := []

/-- What may be offered as a component's definition: something with an id,
as definitions have, or something of another type that has none. -/
inductive Candidate (σ : Type) where
  | definition (d : Definition σ)
  | other (typeName : String)

namespace Candidate

variable {σ : Type}

/-- The id of the component that is offered; null if it has none. -/
def id : Candidate σ → Value
  | .definition d => d.id
  | .other _ => .null

/-- The fault of asking for an id that there is not. -/
def noId (typeName : String) : Fault :=
  .noAttribute s!"'{typeName}' object has no attribute 'component_id'"

/-- The id, for whoever asks; without one that is a fault. -/
def idOrFault : Candidate σ → Except Fault Value
  | .definition d => .ok d.id
  | .other typeName => .error (noId typeName)

end Candidate

namespace Backend

variable {σ : Type}

-- ============================================================ making

/-- A backend with the providers that its configuration lists, and what
the journal says about them. -/
def make (id : Value) (config : Config σ) : Except Fault (Backend σ) × Journal :=
  if !id.isTruthy then (.error (.configuration "Backend id is required"), [])
  else
    let (registry, journal) := Registry.ofList (config.providers.getD [])
    (registry.map fun r => ⟨id, config, r, [], .collecting, [], []⟩, journal)

/-- Whether the backend was initialised. -/
def isInitialized (b : Backend σ) : Bool := b.state = .initialized

-- ============================================================ adding

/-- The definition that is offered, if nothing stands against storing it
under its id. -/
def accept (b : Backend σ) (offered : Candidate σ) : Except Fault (Definition σ) := do
  let refuse := fun why => throw (Fault.component why offered.id [("backend_id", b.id)])
  match b.state, offered with
  | .initialized, _ => refuse "Cannot add components after backend has been initialized"
  | .failed, _ =>
      refuse s!"Cannot add components to backend \"{b.id.label}\" after it failed to initialize"
  | .collecting, .other _ => throw (.component "Component must have a component_id")
  | .collecting, .definition d =>
      if !d.id.isTruthy then throw (.component "Component must have a component_id")
      if ← b.definitions.contains d.id then throw (.duplicateComponent d.id b.id)
      return d

/-- The backend with one more definition, and what the journal says about
it. The journal names the type, so what has none is stored and refused. -/
def add (b : Backend σ) (offered : Candidate σ) : Backend σ × Except Fault Event :=
  match b.accept offered with
  | .error fault => (b, .error fault)
  | .ok d =>
      ({ b with definitions := b.definitions ++ [(d.id, d)] }, do
        return ⟨.debug, "component_added",
          [("backend_id", b.id), ("component_id", d.id), ("component_type", ← d.typeOrFault)]⟩)

/-- Adds several definitions up to the first that is refused. -/
def addAll (b : Backend σ) : List (Candidate σ) → Backend σ × Journal × Option Fault
  | [] => (b, [], none)
  | offered :: rest =>
      match b.add offered with
      | (b, .error fault) => (b, [], some fault)
      | (b, .ok event) =>
          let (b, journal, fault) := addAll b rest
          (b, event :: journal, fault)

/-- The backend with one more provider, what the journal says about it,
and what went wrong. -/
def register (b : Backend σ) (offer : Offer σ) : Backend σ × Journal × Option Fault :=
  let (registry, rest) := b.registry.register offer
  ({ b with registry := registry }, rest)

-- ============================================================ asking

/-- The resource of a type under a key. -/
def resource? (b : Backend σ) (type : Value) (key : Value := .str defaultRequirementKey) :
    Option Resource :=
  b.resources.lookup s!"{type.label}:{key.label}"

/-- The component of an id. -/
def component? (b : Backend σ) (id : Value) : Except Fault (Option (Component σ)) :=
  b.components.find? id

/-- The backend as messages show it. -/
def display (b : Backend σ) : String :=
  s!"Backend({b.id.quotedLabel}, state={b.state.name})"

/-- What the component under an id has to say about its resources. -/
def validateOne (b : Backend σ) (entry : Value × Component σ) :
    Work σ (List String × List String) := do
  let who := s!"Component \"{entry.1.label}\""
  match ← (entry.2.validateResources (.resources b.resources)).outcome with
  | .error fault => return ([s!"{who} validation threw error: {fault.reason}"], [])
  | .ok verdict =>
      let list ← Work.ofExcept (if verdict.valid then .ok ""
        else Value.joinTexts ", " verdict.errors)
      let errors := if verdict.valid then [] else [s!"{who} validation failed: {list}"]
      return (errors, verdict.warnings.map fun w => s!"{who}: {w.label}")

/-- The verdict of all components on their resources. -/
def validate (b : Backend σ) : Work σ Verdict := do
  if !b.isInitialized then return .failed [.str "Backend has not been initialized"]
  let found ← b.components.mapM b.validateOne
  return .ofTexts (found.flatMap Prod.fst) (found.flatMap Prod.snd)

end Backend

end Depot
