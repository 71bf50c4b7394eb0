/-
Components. A definition says how a component is made: by a factory that
gets a scope, the component's id and configuration, and the resources
there are. A backend runs the factory twice, once to learn what the
component requires and once for real; so a factory must not do anything
outside the scope it is given, and must require the same each time.

A component is known by what it declares, by what it does when it is
initialised, and by how it checks the resources that it gets.
-/
import Depot.Provider.Basic
import Depot.Requirement.Key

namespace Depot

/-- A component that was made. -/
structure Component (σ : Type) where
  id : Value
  type : Value
  /-- Whether a backend managed the scope that it was made under. -/
  managed : Bool
  /-- The path of that scope. -/
  scope : Value
  resources : Supply := .resources []
  initialized : Bool := false
  /-- What the component requires. -/
  declare : Work σ (List (Declared σ))
  /-- What the component does with its resources when it is
  initialised. -/
  start : Supply → SiteWork σ Unit
  /-- The component's own check of its resources, if it has one. -/
  ownCheck : Supply → Work σ (Option Verdict)

namespace Component

variable {σ : Type}

/-- A component under a scope, with the resources it was made with. -/
def make (id type : Value) (scope : Scope) (resources : Supply)
    (declare : Work σ (List (Declared σ))) (start : Supply → SiteWork σ Unit)
    (ownCheck : Supply → Work σ (Option Verdict)) : Component σ :=
  ⟨id, type, scope.isManaged, scope.path, resources, false, declare, start, ownCheck⟩

/-- The component after it was initialised with its resources. -/
def activate (c : Component σ) (resources : Supply) : SiteWork σ (Component σ) := do
  c.start resources
  return { c with resources := resources, initialized := true }

/-- The verdict that every declared requirement has a resource, where
`isThere` tells whether there is one under a key. -/
def allPresent (declared : List (Declared σ)) (isThere : String → Except Fault Bool) :
    Except Fault Verdict := do
  let missing ← declared.filterMapM fun d => do
    let key ← d.resourceKey
    return if ← isThere key then none else some s!"Missing resource {key}"
  return .ofTexts missing

/-- The verdict on the resources of a component: its own, or that every
requirement has one. -/
def validateResources (c : Component σ) (resources : Supply) : Work σ Verdict := do
  match ← c.ownCheck resources with
  | some verdict => return verdict
  | none => do
      let declared ← c.declare
      Work.ofExcept (allPresent declared fun key => resources.has key)

/-- What the component tells about itself. -/
def outputs (c : Component σ) : Except Fault Fields := do
  return [("component_id", c.id), ("component_type", c.type),
    ("resources", .list (← c.resources.keys))]

/-- The component as a mapping. -/
def toFields (c : Component σ) : Except Fault Fields := do
  return [("component_id", c.id), ("component_type", c.type),
    ("initialized", .bool c.initialized), ("backend_managed", .bool c.managed),
    ("scope", c.scope), ("outputs", .object (← c.outputs))]

/-- The resource of the component for a requirement. -/
def resource (c : Component σ) (type : Value) (key : Value := .str defaultRequirementKey) :
    Except Fault (Option Resource) := do
  c.resources.get? (← ResourceKey.format type key)

end Component

-- ========================================================= definitions

/-- What a factory gave back: a component, or something of another
type. -/
inductive Product (σ : Type) where
  | component (c : Component σ)
  | other (typeName : String)

/-- How a component is made. -/
abbrev Factory (σ : Type) := (id config : Value) → Supply → SiteWork σ (Product σ)

/-- A component's id, type, configuration and factory. A definition that was
checked has a type; what merely resembles one may lack it. -/
structure Definition (σ : Type) where
  id : Value
  type : Option Value
  factory : Factory σ
  config : Value := .object []

namespace Definition

variable {σ : Type}

/-- A checked definition. What is offered as the factory may be
something that cannot be called. -/
def make (id type : Value) (factory : Option (Factory σ)) (config : Value := .object []) :
    Except Fault (Definition σ) :=
  if !id.isTruthy then .error (.component "Component definition must have a component_id")
  else if !type.isTruthy then
    .error (.component s!"Component \"{id.label}\" must have a component_type" id)
  else match factory with
    | none => .error (.component s!"Component \"{id.label}\" factory must be callable" id)
    | some factory => .ok ⟨id, some type, factory, config⟩

/-- The type, for whoever asks; without one that is a fault. -/
def typeOrFault (d : Definition σ) : Except Fault Value :=
  match d.type with
  | some type => .ok type
  | none => .error (.noAttribute "object has no attribute 'component_type'")

/-- The component that the factory makes under the scope. -/
def create (d : Definition σ) (resources : Supply) : SiteWork σ (Component σ) := do
  match ← d.factory d.id d.config resources with
  | .component c => return c
  | .other type =>
      let what := s!"Factory for component \"{d.id.label}\" returned {type}, not a component"
      throw (.component what d.id)

/-- The requests of a component made for the purpose. -/
def declared (d : Definition σ) : SiteWork σ (List (Request σ)) := do
  let component ← d.create (.resources [])
  let declared ← SiteWork.ofWork component.declare
  SiteWork.ofExcept (declared.mapM Declared.toRequest)

-- ============================================================ purity

/-- A requirement as a mapping, without where it came from. -/
def comparable (r : Requirement) : Except Fault Value := do
  return .object ((← r.toFields).erase "metadata")

/-- What the factory requires when it runs under a new scope of a
name. -/
def declaredUnder (d : Definition σ) (arena : Scope) (name : Value) :
    Work σ (List Value × Scope) := do
  let arena' ← Work.ofExcept (arena.create name)
  let scope := ((arena'.child? name).getD arena').mark ⟨arena.name, .null⟩
  let because := fun (fault : Fault) =>
    if fault.kind? = some .component then fault
    else .component s!"Factory for component \"{d.id.label}\" failed: {fault.reason}" d.id
  let requests ← Work.rephrase because (Work.inScope scope d.declared)
  let shown ← Work.ofExcept (requests.mapM fun r => comparable r.toRequirement)
  return (shown, arena')

/-- Fails unless the factory can run twice: it has to give a component
each time, and one that requires the same. -/
def assertPure (d : Definition σ) : Work σ Unit := do
  let arena ← Work.ofExcept (Scope.root (.str "factory-check"))
  let (first, arena) ← d.declaredUnder arena (.str s!"{d.id.label}-1")
  let (second, _) ← d.declaredUnder arena (.str s!"{d.id.label}-2")
  if !Value.sameItems first second then
    let what := s!"Factory for component \"{d.id.label}\" declared different requirements"
    throw (.component s!"{what} on repeated calls" d.id
      [("first", .list first), ("second", .list second)])

end Definition

end Depot
