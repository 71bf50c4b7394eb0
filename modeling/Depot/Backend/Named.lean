/-
Backends whose components go by names of the caller's choice. The names
map one to one, in order, onto the definitions of the backend beneath, but
for what has no type; once that is initialised each name stands for its
live component.

The components by name are put together when they are first asked for, and
are the same from then on.

A backend defined without providers gets the built-in ones, and without
an id one that tells its environment.
-/
import Depot.Backend.Initialization

namespace Depot

/-- A backend with names for its components. -/
structure NamedBackend (σ : Type) where
  backend : Backend σ
  names : Keyed (Definition σ) := []
  /-- The components by name, once they were asked for. -/
  view : Option (Keyed (Component σ)) := none

/-- What may be offered as the components of a backend: entries by name,
or a value that stands for them. -/
inductive ComponentOffers (σ : Type) where
  | entries (list : Keyed (Candidate σ))
  | value (v : Value)

namespace NamedBackend

variable {σ : Type}

-- ============================================================ making

/-- The entries that are offered. -/
def offered : ComponentOffers σ → Except Fault (Keyed (Candidate σ))
  | .entries list => .ok list
  | .value (.object fs) => .ok (fs.map fun (name, v) => (.str name, .other v.typeName))
  | .value _ =>
      .error (.component "Components must be a mapping of names to component definitions")

/-- What the journal says about a component before it is added. -/
def registering (name : Value) (d : Definition σ) : Except Fault Event := do
  return ⟨.debug, "registering_component",
    [("name", name), ("component_id", d.id), ("component_type", ← d.typeOrFault)]⟩

/-- The backend with some more entries. -/
def addEntries (nb : NamedBackend σ) : Keyed (Candidate σ) →
    Except Fault (NamedBackend σ) × Journal
  | [] => (.ok nb, [])
  | (_, .other typeName) :: _ => (.error (Candidate.noId typeName), [])
  | (name, .definition d) :: rest =>
      match registering name d with
      | .error fault => (.error fault, [])
      | .ok event =>
          match nb.backend.add (.definition d) with
          | (_, .error fault) => (.error fault, [event])
          | (backend, .ok added) =>
              let (result, journal) :=
                addEntries { nb with backend := backend, names := nb.names ++ [(name, d)] } rest
              (result, event :: added :: journal)

/-- A backend with components under names. -/
def make (id : Value) (entries : Keyed (Candidate σ)) (config : Config σ) :
    Except Fault (NamedBackend σ) × Journal :=
  match Backend.make id config with
  | (.error fault, journal) => (.error fault, journal)
  | (.ok backend, journal) =>
      match addEntries { backend := backend } entries with
      | (.error fault, more) => (.error fault, journal ++ more)
      | (.ok nb, more) =>
          (.ok nb, journal ++ more ++ [⟨.info, "typed_backend_created",
            [("backend_id", id), ("components", .int entries.length)]⟩])

/-- The id of a backend that is given none. -/
def defaultId (config : Config σ) : String :=
  match config.environment with
  | none | some "" => "Backend"
  | some name => s!"Backend-{name}"

/-- The configuration with the built-in providers if it lists none, and
what the journal says about that. -/
def withDefaults (config : Config σ) (id : Value) : Config σ × Journal :=
  match config.providers with
  | some _ => (config, [])
  | none => ({ config with providers := some (Provider.builtIn.map .provider) },
      [⟨.debug, "registered_default_providers", [("backend_id", id)]⟩])

/-- Defines a backend by its components. -/
def define (components : ComponentOffers σ) (config : Config σ) (id : Value := .null) :
    Except Fault (NamedBackend σ) × Journal :=
  match offered components with
  | .error fault => (.error fault, [])
  | .ok [] => (.error (.component "Backend must have at least one component"), [])
  | .ok entries =>
      let (config, journal) := withDefaults config id
      let (result, more) := make (id.orElse (.str (defaultId config))) entries config
      (result, journal ++ more)

-- ============================================================ adding

/-- What is offered as an entry under a name; what has no id makes none. -/
def entryUnder (name : Value) : Candidate σ → Keyed (Definition σ)
  | .definition d => [(name, d)]
  | .other _ => []

/-- The name that is asked for: the one that is given, or else the
component's id. -/
def nameAsked (offered : Candidate σ) (name : Value) : Except Fault Value :=
  if name.isTruthy then .ok name else offered.idOrFault

/-- The name to add a component under. One that is used already is refused. -/
def nameFor (nb : NamedBackend σ) (offered : Candidate σ) (name : Value) : Except Fault Value := do
  let name ← nameAsked offered name
  match ← nb.names.find? name with
  | none => return name
  | some old =>
      let what := s!"Component name \"{name.label}\" is already used by \"{old.id.label}\""
      throw (.component what (← offered.idOrFault) [("name", name)])

/-- The backend with one more component, under a name or else under its
own id. The name is kept only if the backend beneath accepts the
component. -/
def add (nb : NamedBackend σ) (offered : Candidate σ) (name : Value := .null) :
    NamedBackend σ × Except Fault Event :=
  match nb.nameFor offered name with
  | .error fault => (nb, .error fault)
  | .ok name =>
      match nb.backend.add offered with
      | (backend, .error fault) => ({ nb with backend := backend }, .error fault)
      | (backend, .ok event) =>
          ({ nb with backend := backend, names := nb.names ++ entryUnder name offered }, .ok event)

/-- Initialises the backend beneath. -/
def start (nb : NamedBackend σ) (settings : Except Fault Settings) :
    StateM (Site σ) (Except Fault Backend.Summary × NamedBackend σ) := do
  let (result, backend) ← nb.backend.start settings
  return (result, { nb with backend := backend })

-- ============================================================ asking

/-- The components by the names that they were defined under. -/
def resolve (nb : NamedBackend σ) : Except Fault (Keyed (Component σ)) :=
  nb.names.filterMapM fun (name, d) => do
    return (← nb.backend.component? d.id).map fun c => (name, c)

/-- The components by name, and the backend that keeps them. -/
def components (nb : NamedBackend σ) : Except Fault (Keyed (Component σ) × NamedBackend σ) :=
  if nb.backend.isInitialized then
    match nb.view with
    | some view => .ok (view, nb)
    | none => do
        let view ← nb.resolve
        return (view, { nb with view := some view })
  else
    .error (.component ("Cannot access components before backend initialization. " ++
      "Call initialize() first.") .null [("backend_id", nb.backend.id)])

/-- The backend as messages show it. -/
def display (nb : NamedBackend σ) : String :=
  let names := (Value.list nb.names.keys).quotedLabel
  s!"TypedBackend({nb.backend.id.quotedLabel}, components={names})"

end NamedBackend

end Depot
