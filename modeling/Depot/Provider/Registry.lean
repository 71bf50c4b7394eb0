/-
Registries of providers. A provider is found by its id, or by a
requirement: the first one, in the order of registration, that is listed
for the requirement's type and says that it can supply it.

Beside the providers a registry keeps an index from types to the ids of
the providers listed for them. A type without providers is not in the
index.
-/
import Depot.Provider.Cosmos
import Depot.Provider.Functions
import Depot.Provider.Generic
import Depot.Provider.Storage

namespace Depot

/-- What may be offered as a provider: a provider, or a value that is
none. -/
inductive Offer (σ : Type) where
  | provider (p : Provider σ)
  | value (v : Value)

/-- Providers by id, and the ids by type. -/
structure Registry (σ : Type) where
  providers : Keyed (Provider σ) := []
  index : Keyed (List Value) := []

/-- Whether all requirements can be supplied, and the types of those that
cannot. -/
structure Coverage where
  valid : Bool
  missing : List Value
  deriving DecidableEq

/-- The coverage as a mapping. -/
def Coverage.toFields (c : Coverage) : Fields :=
  [("valid", .bool c.valid), ("missing_types", .list c.missing)]

namespace Registry

variable {σ : Type}

-- ====================================================== registration

/-- The index with an id listed for one more type. -/
def listFor (id type : Value) (index : Keyed (List Value)) : Keyed (List Value) :=
  let ids := (index.get? type).getD []
  if id.isAmong ids then index else index.put type (ids ++ [id])

/-- The index with an id listed for several types, up to the first that
cannot be a key. -/
def listForAll (id : Value) : List Value → Keyed (List Value) → Keyed (List Value) × Option Fault
  | [], index => (index, none)
  | type :: rest, index =>
      if type.canName then listForAll id rest (listFor id type index)
      else (index, some type.cannotName)

/-- The types of a provider, of which there has to be one. -/
def typesOf (id : Value) (p : Provider σ) : Except Fault (List Value) := do
  match ← (p.types.orElse (.list [])).iterate with
  | [] =>
      throw (.provider s!"Provider \"{id.label}\" must support at least one resource type" id)
  | types => return types

/-- The fault of a provider without an id. -/
def nameless : Fault := .provider "Provider must have a provider_id"

/-- The provider that is offered, and the id and types under which it can
be registered. -/
def accept (r : Registry σ) : Offer σ → Except Fault (Provider σ × Value × List Value)
  | .value _ => .error nameless
  | .provider p => do
      let id := p.id.getD .null
      if !id.isTruthy then throw nameless
      let types ← typesOf id p
      if ← r.providers.contains id then
        throw (.provider s!"Provider with ID \"{id.label}\" is already registered" id)
      return (p, id, types)

/-- The registry with one more provider, what the journal says about it,
and what went wrong. A provider with a type that cannot be a key is
registered, but not listed for that type or a later one. -/
def register (r : Registry σ) (offer : Offer σ) : Registry σ × Journal × Option Fault :=
  match r.accept offer with
  | .error fault => (r, [], some fault)
  | .ok (p, id, types) =>
      let (index, fault) := listForAll id types r.index
      let event : Event := ⟨.debug, "provider_registered",
        [("provider_id", id), ("supported_types", .list types)]⟩
      (⟨r.providers.put id p, index⟩, if fault.isSome then [] else [event], fault)

/-- Registers several providers up to the first with which something goes
wrong. -/
def registerAll (r : Registry σ) : List (Offer σ) → Registry σ × Journal × Option Fault
  | [] => (r, [], none)
  | offer :: offers =>
      match r.register offer with
      | (r, journal, some fault) => (r, journal, some fault)
      | (r, journal, none) =>
          let (r, more, fault) := registerAll r offers
          (r, journal ++ more, fault)

/-- A registry of some providers, which all have to be accepted. -/
def ofList (offers : List (Offer σ)) : Except Fault (Registry σ) × Journal :=
  match ({} : Registry σ).registerAll offers with
  | (r, journal, none) => (.ok r, journal)
  | (_, journal, some fault) => (.error fault, journal)

/-- The index without an id among those of a type. -/
def unlist (id type : Value) (index : Keyed (List Value)) : Keyed (List Value) :=
  match index.get? type with
  | none => index
  | some ids =>
      match ids.filter fun other => !other.same id with
      | [] => index.erase type
      | rest => index.put type rest

/-- The index without an id among those of several types, up to the first
that cannot be a key. -/
def unlistAll (id : Value) : List Value → Keyed (List Value) → Keyed (List Value) × Option Fault
  | [], index => (index, none)
  | type :: rest, index =>
      if type.canName then unlistAll id rest (unlist id type index)
      else (index, some type.cannotName)

/-- The registry without a provider, and whether there was one. -/
def unregister (r : Registry σ) (id : Value) : Registry σ × Except Fault Bool :=
  match r.providers.find? id with
  | .error fault => (r, .error fault)
  | .ok none => (r, .ok false)
  | .ok (some p) =>
      let (index, fault) := unlistAll id ((typesOf id p).toOption.getD []) r.index
      (⟨r.providers.erase id, index⟩, (fault.map .error).getD (.ok true))

-- ============================================================ look-up

/-- The provider of an id. -/
def get? (r : Registry σ) (id : Value) : Except Fault (Option (Provider σ)) :=
  r.providers.find? id

/-- All providers in the order of registration. -/
def all (r : Registry σ) : List (Provider σ) := r.providers.map Prod.snd

/-- The providers listed for a type. -/
def forType (r : Registry σ) (type : Value) : Except Fault (List (Provider σ)) := do
  return ((← r.index.find? type).getD []).filterMap r.providers.get?

/-- Whether a provider is listed for a type. -/
def supports (r : Registry σ) (type : Value) : Except Fault Bool := r.index.contains type

/-- The types with providers, in the order of their listing. -/
def supportedTypes (r : Registry σ) : List Value := r.index.keys

/-- The first of some providers that can supply a requirement. -/
def firstCapable (requirement : Requirement) : List (Provider σ) → Work σ (Option (Provider σ))
  | [] => return none
  | p :: rest => do
      if ← p.canProvide requirement then return some p else firstCapable requirement rest

/-- The provider for a requirement. -/
def find? (r : Registry σ) (requirement : Requirement) : Work σ (Option (Provider σ)) := do
  firstCapable requirement (← Work.ofExcept (r.forType requirement.type))

/-- The provider for a requirement, which has to have one. -/
def find (r : Registry σ) (requirement : Requirement) : Work σ (Provider σ) := do
  match ← r.find? requirement with
  | some p => return p
  | none => throw (.missingProvider requirement.type)

/-- The types of requirements that have no provider, each once. -/
def missingTypes (r : Registry σ) (missing : List Value) : List Requirement → Work σ (List Value)
  | [] => return missing
  | requirement :: rest => do
      match ← r.find? requirement with
      | some _ => missingTypes r missing rest
      | none =>
          let type := requirement.type
          missingTypes r (if type.isAmong missing then missing else missing ++ [type]) rest

/-- Whether all requirements have providers. -/
def coverage (r : Registry σ) (requirements : List Requirement) : Work σ Coverage := do
  let missing ← r.missingTypes [] requirements
  return ⟨missing.isEmpty, missing⟩

/-- The registry as messages show it. -/
def display (r : Registry σ) : String :=
  let ids := (Value.list r.providers.keys).quotedLabel
  s!"ProviderRegistry(providers={ids})"

end Registry

namespace Provider

variable {σ : Type}

/-- The providers that come with the library. -/
def builtIn : List (Provider σ) :=
  [Cosmos.kind.provider, Functions.kind.provider, Storage.kind.provider]

/-- The provider of an id: one that was registered for everyone, else a
built-in one. -/
def resolve (everyone : Registry σ) (id : Value) : Except Fault (Option (Provider σ)) := do
  return (← everyone.get? id).orElse fun _ =>
    builtIn.find? fun p => p.id.any fun other => other.same id

end Provider

end Depot
