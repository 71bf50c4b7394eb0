/-
Builders: components and configuration gathered step by step, and a
backend built from them. Every change of the configuration is checked as
a whole when it is made.
-/
import Depot.Backend.Named

namespace Depot

/-- What a backend is to be built from. -/
structure Builder (σ : Type) where
  config : Config σ := {}
  components : Keyed (Definition σ) := []

/-- The outcome of one step: the builder afterwards, what the journal
says, and what went wrong. -/
structure BuilderStep (σ : Type) where
  builder : Builder σ
  journal : Journal := []
  fault : Option Fault := none

/-- What may be offered as quotas: quotas, or a value that describes
some. -/
inductive LimitsOffer where
  | limits (l : Limits)
  | value (v : Value)

namespace Builder

variable {σ : Type}

-- ========================================================= components

/-- The definition that is offered, if nothing stands against storing it
under its id. -/
def accept (b : Builder σ) : Candidate σ → Except Fault (Definition σ)
  | .other _ => .error (.component "Component must have a component_id")
  | .definition d => do
      if !d.id.isTruthy then throw (.component "Component must have a component_id")
      if ← b.components.contains d.id then
        let what := s!"Component with ID \"{d.id.label}\" has already been added to this builder"
        throw (.component what d.id)
      return d

/-- Adds a component. The journal names its type, so what has none is added
but not accepted. -/
def add (b : Builder σ) (offered : Candidate σ) : BuilderStep σ :=
  match b.accept offered with
  | .error fault => ⟨b, [], some fault⟩
  | .ok d =>
      let added := { b with components := b.components ++ [(d.id, d)] }
      match d.typeOrFault with
      | .error fault => ⟨added, [], some fault⟩
      | .ok type =>
          ⟨added, [⟨.debug, "builder_component_added",
            [("component_id", d.id), ("component_type", type)]⟩], none⟩

/-- One step after another, up to the first that goes wrong. -/
def inTurn {α : Type} (step : Builder σ → α → BuilderStep σ) (b : Builder σ) :
    List α → BuilderStep σ
  | [] => ⟨b, [], none⟩
  | a :: rest =>
      match step b a with
      | ⟨b, journal, some fault⟩ => ⟨b, journal, some fault⟩
      | ⟨b, journal, none⟩ =>
          let last := inTurn step b rest
          ⟨last.builder, journal ++ last.journal, last.fault⟩

/-- Adds several components. -/
def addAll (b : Builder σ) (candidates : List (Candidate σ)) : BuilderStep σ :=
  inTurn add b candidates

/-- The ids of the components in order. -/
def ids (b : Builder σ) : List Value := b.components.keys

/-- Whether there is a component of an id. -/
def has (b : Builder σ) (id : Value) : Except Fault Bool := b.components.contains id

/-- Removes a component, and tells whether it was there. -/
def remove (b : Builder σ) (id : Value) : Except Fault (Builder σ × Journal × Bool) := do
  if ← b.has id then
    return ({ b with components := b.components.erase id },
      [⟨.debug, "builder_component_removed", [("component_id", id)]⟩], true)
  else return (b, [], false)

/-- Drops all components. -/
def clear (b : Builder σ) : BuilderStep σ :=
  ⟨{ b with components := [] },
    [⟨.debug, "builder_components_cleared", [("count", .int b.components.length)]⟩], none⟩

/-- Drops everything. -/
def reset (b : Builder σ) : BuilderStep σ := { b.clear with builder := {} }

-- ====================================================== configuration

/-- Checks the configuration anew after a change. -/
def update (b : Builder σ) (change : Draft σ → Draft σ) : Except Fault (Builder σ) := do
  return { b with config := ← Config.ofDraft (change b.config.draft) }

/-- A change of the configuration, and what the journal says if it is
accepted. -/
def change (b : Builder σ) (f : Draft σ → Draft σ) (journal : Journal := []) : BuilderStep σ :=
  match b.update f with
  | .ok b => ⟨b, journal, none⟩
  | .error fault => ⟨b, [], some fault⟩

/-- Sets one part of the configuration. -/
def setPart (b : Builder σ) (key : String) (v : Value) : BuilderStep σ :=
  b.change fun d => { d with entries := d.entries.set key v }

/-- Sets the environment. -/
def withEnvironment (b : Builder σ) (v : Value) : BuilderStep σ := b.setPart "environment" v

/-- Sets the location. -/
def withLocation (b : Builder σ) (v : Value) : BuilderStep σ := b.setPart "location" v

/-- Sets the naming convention. -/
def withNaming (b : Builder σ) (n : NamingOffer) : BuilderStep σ :=
  b.change fun d => { d with naming := n }

/-- Adds tags to those set earlier. -/
def withTags (b : Builder σ) (tags : Value) : BuilderStep σ :=
  match tags with
  | .object new =>
      b.change (fun d => { d with
          entries := d.entries.set "tags" (.object (Fields.putAll b.config.tags new)) })
        [⟨.debug, "builder_tags_added", [("count", .int new.length)]⟩]
  | v => ⟨b, [], some (.badType s!"'{v.typeName}' object is not a mapping")⟩

/-- Adds a provider. The journal names it, so one without an id is added
but not accepted. -/
def withProvider (b : Builder σ) (offer : Offer σ) : BuilderStep σ :=
  let offers := b.config.providers.getD [] ++ [offer]
  match b.update fun d => { d with providers := .list offers } with
  | .error fault => ⟨b, [], some fault⟩
  | .ok b =>
      let added := fun (id : Value) =>
        [⟨.debug, "builder_provider_added", [("provider_id", id)]⟩]
      match offer with
      | .provider ⟨some id, _, _, _, _, _⟩ => ⟨b, added id, none⟩
      | .provider ⟨none, _, _, _, _, _⟩ =>
          ⟨b, [], some (.noAttribute "object has no attribute 'provider_id'")⟩
      | .value v => ⟨b, [], some (v.lacks "provider_id")⟩

/-- Adds several providers. -/
def withProviders (b : Builder σ) (offers : List (Offer σ)) : BuilderStep σ :=
  inTurn withProvider b offers

/-- Sets the quotas. -/
def withLimits (b : Builder σ) (offer : LimitsOffer) : BuilderStep σ :=
  let limits : Except Fault Limits := match offer with
    | .limits l => .ok l
    | .value v => do (Limits.ofEntries (Data.ofEntries (← v.toEntries))).toExcept
  match limits with
  | .error fault => ⟨b, [], some fault⟩
  | .ok l => b.setPart "limits" (.object l.toFields)

-- ============================================================ building

/-- Builds a backend, with an id or a default one. -/
def build (b : Builder σ) (id : Value := .null) : Except Fault (NamedBackend σ) × Journal :=
  if b.components.isEmpty then
    (.error (.component ("Cannot build backend with no components. " ++
      "Add at least one component using add_component()")), [])
  else
    let entries := b.components.map fun (name, d) => (name, Candidate.definition d)
    let (result, journal) := NamedBackend.define (.entries entries) b.config id
    (result, ⟨.info, "building_backend", [("components", .int b.components.length)]⟩ :: journal)

/-- The builder as messages show it. -/
def display (b : Builder σ) : String :=
  let ids := (Value.list b.ids).quotedLabel
  s!"BackendBuilder(components={ids})"

end Builder

end Depot
