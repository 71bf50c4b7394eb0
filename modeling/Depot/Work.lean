/-
The work of collaborators. Components, validators and providers are
supplied from outside; all that is known of one is a function that may
fail, may write to the journal and may remember something. Work at a
site also has a scope, in which it may make things.

A failure does not undo what was written, remembered or made before it.
Work without a site cannot touch any scope: there is none in what it
works on.
-/
import Depot.Journal
import Depot.Scope

namespace Depot

/-- What work goes on: a memory of the collaborators' own, and the
journal. -/
structure Desk (σ : Type) where
  memory : σ
  journal : Journal := []

/-- A desk at a scope. -/
structure Site (σ : Type) extends Desk σ where
  scope : Scope

/-- Work away from any scope. -/
abbrev Work (σ α : Type) := ExceptT Fault (StateM (Desk σ)) α

/-- Work at a scope. -/
abbrev SiteWork (σ α : Type) := ExceptT Fault (StateM (Site σ)) α

variable {σ α : Type}

namespace Work

/-- A result that takes no work. -/
def ofExcept (r : Except Fault α) : Work σ α := ExceptT.mk (pure r)

/-- Writes to the journal. -/
def report (events : Journal) : Work σ Unit :=
  modify fun d => { d with journal := d.journal ++ events }

/-- A result with what there is to report about it. -/
def ofReported (r : Except Fault α × Journal) : Work σ α := do
  report r.2
  ofExcept r.1

/-- The outcome of work that may fail, as a result. -/
def outcome (w : Work σ α) : Work σ (Except Fault α) := ExceptT.mk do
  return .ok (← w.run)

/-- The work with another fault in the place of its own. -/
def rephrase (f : Fault → Fault) (w : Work σ α) : Work σ α := ExceptT.mk do
  match ← w.run with
  | .ok a => return .ok a
  | .error fault => return .error (f fault)

/-- Work at a scope, with the scope afterwards. -/
def atScope (scope : Scope) (w : StateM (Site σ) α) : Work σ (α × Scope) := ExceptT.mk fun d =>
  let (a, site) := w.run ⟨d, scope⟩
  (.ok (a, site.scope), site.toDesk)

/-- Work at a scope of its own, which is gone afterwards. -/
def inScope (scope : Scope) (w : SiteWork σ α) : Work σ α := ExceptT.mk fun d =>
  let (r, site) := w.run ⟨d, scope⟩
  (r, site.toDesk)

end Work

namespace SiteWork

/-- Work that leaves the scope alone. -/
def ofWork (w : Work σ α) : SiteWork σ α := ExceptT.mk fun s =>
  let (r, desk) := w.run s.toDesk
  (r, { s with toDesk := desk })

/-- A result that takes no work. -/
def ofExcept (r : Except Fault α) : SiteWork σ α := ExceptT.mk (pure r)

/-- Writes to the journal. -/
def report (events : Journal) : SiteWork σ Unit :=
  modify fun s => { s with journal := s.journal ++ events }

/-- The scope as it stands. -/
def scope : SiteWork σ Scope := do return (← get).scope

/-- Marks the scope. -/
def mark (m : BackendMark) : SiteWork σ Unit :=
  modify fun s => { s with scope := s.scope.mark m }

/-- Makes a child scope and gives its path. -/
def createChild (name : Value) : SiteWork σ String := do
  let site ← get
  let new ← ofExcept (site.scope.create name)
  set { site with scope := new }
  return new.pathBelow name

/-- The work with another fault in the place of its own. -/
def rephrase (f : Fault → Fault) (w : SiteWork σ α) : SiteWork σ α := ExceptT.mk do
  match ← w.run with
  | .ok a => return .ok a
  | .error fault => return .error (f fault)

end SiteWork

/-- A fault of the library as it is, any other as `f` puts it. -/
def Fault.orPut (f : Fault → Fault) (fault : Fault) : Fault :=
  if fault.isFailure then fault else f fault

end Depot
