/-
Watched collaborators. To say which calls a backend makes, in which order
and with what, the calls have to be seen; but a collaborator only
has its memory, which is its own. A watched collaborator does what the
plain one does on a memory beside which stands a list of calls, and puts a
call on that list when it is made, merged for, started or asked to
provide. Nothing that is watched can read the list.

Requests carry validators, which are collaborators as well. A provider
that merges is therefore given plain requests (`Request.bare`), and
watching and baring again changes nothing (`Request.bare_watched`).

`Backend.calls` is then the list of a whole initialisation: what the
watched backend leaves on an empty list.
-/
import Depot.Backend.Initialization

namespace Depot

variable {σ α : Type}

-- =============================================================== calls

/-- A call of a collaborator. A component is made for an id and with some
resources; it is started by its own id. -/
inductive Call where
  | create (id : Value) (resources : Supply)
  | start (id : Value) (resources : Supply)
  | merge (provider : Option Value) (requirements : List Requirement)
  | provide (provider : Option Value) (requirement : Requirement) (context : Provisioning)

/-- Whether a resource is made by the call. -/
def Call.Provides : Call → Prop
  | .provide .. => True
  | _ => False

/-- A memory beside which stands a list of calls. -/
structure Watched (σ : Type) where
  memory : σ
  calls : List Call

/-- A desk with calls seen so far. -/
def Desk.watched (d : Desk σ) (calls : List Call) : Desk (Watched σ) :=
  ⟨⟨d.memory, calls⟩, d.journal⟩

/-- A desk without the list of calls. -/
def Desk.bare (d : Desk (Watched σ)) : Desk σ := ⟨d.memory.memory, d.journal⟩

/-- A site with calls seen so far. -/
def Site.watched (s : Site σ) (calls : List Call) : Site (Watched σ) :=
  ⟨s.toDesk.watched calls, s.scope⟩

/-- A site without the list of calls. -/
def Site.bare (s : Site (Watched σ)) : Site σ := ⟨s.toDesk.bare, s.scope⟩

namespace Work

/-- Plain work beside a list of calls. -/
def watched (w : Work σ α) : Work (Watched σ) α := ExceptT.mk fun d =>
  ((w.run d.bare).1, (w.run d.bare).2.watched d.memory.calls)

/-- Watched work on an empty list of calls, which is thrown away. -/
def bare (w : Work (Watched σ) α) : Work σ α := ExceptT.mk fun d =>
  ((w.run (d.watched [])).1, (w.run (d.watched [])).2.bare)

/-- Puts a call on the list. -/
def note (call : Call) : Work (Watched σ) Unit :=
  modify fun d => d.bare.watched (d.memory.calls ++ [call])

/-- Watched work without its list is the plain work. -/
theorem bare_watched (w : Work σ α) : w.watched.bare = w := rfl

end Work

namespace SiteWork

/-- Plain work at a scope beside a list of calls. -/
def watched (w : SiteWork σ α) : SiteWork (Watched σ) α := ExceptT.mk fun s =>
  ((w.run s.bare).1, (w.run s.bare).2.watched s.memory.calls)

/-- Puts a call on the list. -/
def note (call : Call) : SiteWork (Watched σ) Unit := SiteWork.ofWork (Work.note call)

end SiteWork

-- ====================================================== collaborators

/-- A validator beside a list of calls. -/
def Validator.watched (v : Validator σ) : Validator (Watched σ) :=
  ⟨v.name, fun r surroundings => (v.validate r surroundings).watched⟩

/-- A validator without a list of calls. -/
def Validator.bare (v : Validator (Watched σ)) : Validator σ :=
  ⟨v.name, fun r surroundings => (v.validate r surroundings).bare⟩

/-- A request with its validators watched. -/
def Request.watched (r : Request σ) : Request (Watched σ) :=
  ⟨r.toRequirement, r.validators.map Validator.watched⟩

/-- A request with its validators as they were. -/
def Request.bare (r : Request (Watched σ)) : Request σ :=
  ⟨r.toRequirement, r.validators.map Validator.bare⟩

/-- Watched requests without their lists are the plain ones. -/
theorem Request.bare_watched (r : Request σ) : r.watched.bare = r := by
  unfold Request.watched Request.bare
  have hv : (r.validators.map Validator.watched).map Validator.bare = r.validators := by
    rw [List.map_map]
    exact List.map_id _
  rw [hv]

/-- What a component hands over, watched. -/
def Declared.watched : Declared σ → Declared (Watched σ)
  | .request r => .request r.watched
  | .plain v => .plain v

/-- A component whose start is put on the list. -/
def Component.watched (c : Component σ) : Component (Watched σ) where
  id := c.id
  type := c.type
  managed := c.managed
  scope := c.scope
  resources := c.resources
  initialized := c.initialized
  declare := do return (← c.declare.watched).map Declared.watched
  start := fun resources => do
    SiteWork.note (.start c.id resources)
    (c.start resources).watched
  ownCheck := fun resources => (c.ownCheck resources).watched

/-- What a factory gave back, watched. -/
def Product.watched : Product σ → Product (Watched σ)
  | .component c => .component c.watched
  | .other type => .other type

/-- A definition whose factory is watched. -/
def Definition.watched (d : Definition σ) : Definition (Watched σ) where
  id := d.id
  type := d.type
  factory := fun id config resources => do
    SiteWork.note (.create id resources)
    return (← (d.factory id config resources).watched).watched
  config := d.config

/-- A provider whose merging and providing are put on the list. -/
def Provider.watched (p : Provider σ) : Provider (Watched σ) where
  id := p.id
  types := p.types
  canProvide := fun r => (p.canProvide r).watched
  merge := fun requests => do
    Work.note (.merge p.id (requests.map Request.toRequirement))
    return (← (p.merge (requests.map Request.bare)).watched).watched
  validateMerged := fun r => (p.validateMerged r).watched
  provide := fun r context => do
    SiteWork.note (.provide p.id r context)
    (p.provide r context).watched

/-- What is offered as a provider, watched. -/
def Offer.watched : Offer σ → Offer (Watched σ)
  | .provider p => .provider p.watched
  | .value v => .value v

/-- A registry of watched providers. -/
def Registry.watched (r : Registry σ) : Registry (Watched σ) :=
  ⟨r.providers.map fun e => (e.1, e.2.watched), r.index⟩

/-- A backend all of whose collaborators are watched. -/
def Backend.watched (b : Backend σ) : Backend (Watched σ) where
  id := b.id
  config := ⟨b.config.toProfile, b.config.providers.map (List.map Offer.watched)⟩
  registry := b.registry.watched
  definitions := b.definitions.map fun e => (e.1, e.2.watched)
  state := b.state
  resources := b.resources
  components := b.components.map fun e => (e.1, e.2.watched)

/-- The calls that starting the backend makes. -/
def Backend.calls (b : Backend σ) (settings : Except Fault Settings) (s : Site σ) : List Call :=
  ((b.watched.start settings).run (s.watched [])).2.memory.calls

end Depot
