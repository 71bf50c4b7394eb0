/-
The life of a backend. A session is a backend together with the desk that
its collaborators share; an operation is anything that can be done with
the backend, and `Session.run` does any number of them in any order.

Whatever an operation does to the backend is a sequence of moves, and
`Move` says once what a move can be (`moves_step`). There are five: a
definition is added, a provider comes or goes, the initialisation fails,
the initialisation publishes. Every invariant of a backend is derived
from that, one case a move.

# What follows

- Nothing is published before an initialisation has succeeded
  (`Move.unpublished`).
- A backend that has stopped collecting keeps its state, its definitions
  and what it published (`Move.frozen`), because three of the five moves
  need a backend that collects and the other two touch providers only.
- Starting a backend that collects ends in one of two ways
  (`Session.step_start_cases`): it publishes, or exactly one phase
  has stopped and the failure names it.
-/
import Depot.Proofs.Backend.Phases
import Mathlib.Logic.Relation

namespace Depot

open Relation (ReflTransGen)

variable {σ : Type}

-- ============================================================ sessions

/-- What can be done with a backend. Its configuration is fixed when it is
made; settings of the process and the caller's scope may be others each
time. -/
inductive Operation (σ : Type) where
  | add (offered : Candidate σ)
  | addAll (offered : List (Candidate σ))
  | register (offer : Offer σ)
  | registerAll (offers : List (Offer σ))
  | unregister (id : Value)
  | plan (settings : Except Fault Settings)
  | validate
  | resource (type key : Value)
  | component (id : Value)
  | start (settings : Except Fault Settings) (scope : Scope)

/-- What an operation answers if it does not fail. -/
inductive Answer (σ : Type) where
  | done
  | removed (was : Bool)
  | plan (p : Plan σ)
  | verdict (v : Verdict)
  | resource (r : Option Resource)
  | component (c : Option (Component σ))
  | summary (s : Backend.Summary)

/-- A backend and the desk of its collaborators. -/
structure Session (σ : Type) where
  backend : Backend σ
  desk : Desk σ

namespace Session

/-- The answer of an operation that has nothing to tell but its fault. -/
def doneUnless : Option Fault → Except Fault (Answer σ)
  | none => .ok .done
  | some fault => .error fault

/-- The session with another backend, and more in the journal. -/
def leave (s : Session σ) (b : Backend σ) (events : Journal) : Session σ :=
  ⟨b, { s.desk with journal := s.desk.journal ++ events }⟩

/-- One operation. -/
def step (s : Session σ) : Operation σ → Except Fault (Answer σ) × Session σ
  | .add offered =>
      let (b, added) := s.backend.add offered
      (added.map fun _ => .done, s.leave b added.toOption.toList)
  | .addAll offered =>
      let (b, events, fault) := s.backend.addAll offered
      (doneUnless fault, s.leave b events)
  | .register offer =>
      let (b, events, fault) := s.backend.register offer
      (doneUnless fault, s.leave b events)
  | .registerAll offers =>
      let (registry, events, fault) := s.backend.registry.registerAll offers
      (doneUnless fault, s.leave { s.backend with registry := registry } events)
  | .unregister id =>
      let (registry, removed) := s.backend.registry.unregister id
      (removed.map .removed, s.leave { s.backend with registry := registry } [])
  | .plan settings =>
      let (r, desk) := (s.backend.plan settings).run s.desk
      (r.map .plan, ⟨s.backend, desk⟩)
  | .validate =>
      let (r, desk) := s.backend.validate.run s.desk
      (r.map .verdict, ⟨s.backend, desk⟩)
  | .resource type key => (.ok (.resource (s.backend.resource? type key)), s)
  | .component id => ((s.backend.component? id).map .component, s)
  | .start settings scope =>
      let ((r, b), site) := (s.backend.start settings).run ⟨s.desk, scope⟩
      (r.map .summary, ⟨b, site.toDesk⟩)

/-- The session after some operations, whatever they answered. -/
def run (s : Session σ) (ops : List (Operation σ)) : Session σ :=
  ops.foldl (fun s op => (s.step op).2) s

end Session

-- =============================================================== moves

namespace Backend

/-- One thing that can happen to a backend. -/
inductive Move : Backend σ → Backend σ → Prop where
  | adds {b : Backend σ} {d : Definition σ} (collecting : b.state = .collecting)
      (new : b.definitions.contains d.id = .ok false) :
      Move b { b with definitions := b.definitions ++ [(d.id, d)] }
  | registers {b : Backend σ} (offer : Offer σ) :
      Move b { b with registry := (b.registry.register offer).1 }
  | unregisters {b : Backend σ} (id : Value) :
      Move b { b with registry := (b.registry.unregister id).1 }
  | fails {b : Backend σ} (collecting : b.state = .collecting) :
      Move b { b with state := .failed }
  | publishes {b : Backend σ} (p : Published σ) (collecting : b.state = .collecting) :
      Move b (b.published p)

/-- Any number of moves. -/
abbrev Moves : Backend σ → Backend σ → Prop := ReflTransGen Move

/-- What is accepted is a definition with a new id, and the backend collects. -/
theorem accept_ok {b : Backend σ} {offered : Candidate σ} {d : Definition σ}
    (h : b.accept offered = .ok d) :
    offered = .definition d ∧ b.state = .collecting ∧ d.id.isTruthy = true
      ∧ b.definitions.contains d.id = .ok false := by
  unfold accept at h
  dsimp only at h
  split at h
  next => cases h
  next => cases h
  next => cases h
  next d' hs =>
    cases hid : d'.id.isTruthy with
    | false => rw [hid] at h; cases h
    | true =>
        rw [hid] at h
        obtain ⟨there, hthere, h⟩ := bind_eq_ok.1 h
        cases there with
        | true => cases h
        | false =>
            cases h
            exact ⟨rfl, hs, hid, hthere⟩

/-- A backend with one more definition. -/
def store (b : Backend σ) (d : Definition σ) : Backend σ :=
  { b with definitions := b.definitions ++ [(d.id, d)] }

/-- What is not accepted leaves the backend alone. -/
theorem add_of_refused {b : Backend σ} {offered : Candidate σ} {fault : Fault}
    (h : b.accept offered = .error fault) : b.add offered = (b, .error fault) := by
  unfold add
  rw [h]

/-- What is accepted is stored, before it is asked for its type. -/
theorem add_of_accepted {b : Backend σ} {offered : Candidate σ} {d : Definition σ}
    (h : b.accept offered = .ok d) :
    b.add offered = (b.store d, do
      return ⟨.debug, "component_added",
        [("backend_id", b.id), ("component_id", d.id), ("component_type", ← d.typeOrFault)]⟩) := by
  unfold add
  rw [h]
  rfl

/-- Offering a component is a series of moves, whether it is accepted or
not. -/
theorem moves_add (b : Backend σ) (offered : Candidate σ) : Moves b (b.add offered).1 := by
  cases h : b.accept offered with
  | error fault => rw [add_of_refused h]
  | ok d =>
      obtain ⟨-, collecting, -, new⟩ := accept_ok h
      rw [add_of_accepted h]
      exact .single (.adds collecting new)

/-- Offering several components is a series of moves, up to the first that
is refused. -/
theorem moves_addAll (b : Backend σ) (offered : List (Candidate σ)) :
    Moves b (b.addAll offered).1 := by
  induction offered generalizing b with
  | nil => exact .refl
  | cons o rest ih =>
      have first := b.moves_add o
      unfold addAll
      rcases h : b.add o with ⟨b', fault | event⟩
      · rw [h] at first
        exact first
      · rw [h] at first
        exact first.trans (ih b')

/-- Registering providers is a move for each. -/
theorem moves_registerAll (b : Backend σ) (offers : List (Offer σ)) :
    Moves b { b with registry := (b.registry.registerAll offers).1 } := by
  induction offers generalizing b with
  | nil => exact .refl
  | cons o rest ih =>
      have first : Move b { b with registry := (b.registry.register o).1 } := .registers o
      unfold Registry.registerAll
      rcases h : b.registry.register o with ⟨r, events, _ | fault⟩
      · rw [h] at first
        exact .head first (ih { b with registry := r })
      · rw [h] at first
        exact .single first

/-- A start is a series of moves, whatever comes of it. -/
theorem moves_start (b : Backend σ) (settings : Except Fault Settings) (s : Site σ) :
    Moves b ((b.start settings).run s).1.2 := by
  by_cases hb : b.state = .collecting
  · rw [start_run hb]
    rcases (b.runPhases settings).run (b.begun s) with ⟨fault | p, s'⟩
    · exact .single (.fails hb)
    · exact .single (.publishes p hb)
  · obtain ⟨why, h⟩ := start_run_of_ne hb settings s
    rw [h]

end Backend

open Backend

/-- Whatever an operation does to the backend is a sequence of moves. -/
theorem Session.moves_step (s : Session σ) (op : Operation σ) :
    Moves s.backend (s.step op).2.backend := by
  cases op with
  | add offered => exact moves_add s.backend offered
  | addAll offered => exact moves_addAll s.backend offered
  | register offer => exact .single (.registers offer)
  | registerAll offers => exact moves_registerAll s.backend offers
  | unregister id => exact .single (.unregisters id)
  | plan settings => exact .refl
  | validate => exact .refl
  | resource type key => exact .refl
  | component id => exact .refl
  | start settings scope => exact moves_start s.backend settings ⟨s.desk, scope⟩

/-- Every run of operations is a series of moves of the backend. -/
theorem Session.moves_run (s : Session σ) (ops : List (Operation σ)) :
    Moves s.backend (s.run ops).backend := by
  induction ops generalizing s with
  | nil => exact .refl
  | cons op ops ih => exact (s.moves_step op).trans (ih (s.step op).2)

-- ========================================================== invariants

namespace Backend

/-- Resources and components are there only after an initialisation that
succeeded. -/
def Unpublished (b : Backend σ) : Prop :=
  b.state ≠ .initialized → b.resources = [] ∧ b.components = []

/-- Two backends of the same state, definitions, resources and
components. Their providers may differ. -/
def SameHoldings (b b' : Backend σ) : Prop :=
  b'.state = b.state ∧ b'.definitions = b.definitions
    ∧ b'.resources = b.resources ∧ b'.components = b.components

/-- No move leaves results behind unless it is a start that succeeds. -/
theorem Move.unpublished {b b' : Backend σ} (h : Move b b') (hb : b.Unpublished) :
    b'.Unpublished := by
  cases h with
  | adds _ _ => exact hb
  | registers offer => exact hb
  | unregisters id => exact hb
  | fails hc => exact fun _ => hb (by rw [hc]; decide)
  | publishes p hc => exact fun hn => absurd rfl hn

/-- No series of moves leaves results behind without a start that succeeds. -/
theorem Moves.unpublished {b b' : Backend σ} (h : Moves b b') (hb : b.Unpublished) :
    b'.Unpublished := by
  induction h with
  | refl => exact hb
  | tail _ last ih => exact last.unpublished ih

/-- A backend that no longer collects keeps what it holds. -/
theorem Move.frozen {b b' : Backend σ} (h : Move b b') (hb : b.state ≠ .collecting) :
    b.SameHoldings b' := by
  cases h with
  | adds hc _ => exact absurd hc hb
  | registers offer => exact ⟨rfl, rfl, rfl, rfl⟩
  | unregisters id => exact ⟨rfl, rfl, rfl, rfl⟩
  | fails hc => exact absurd hc hb
  | publishes p hc => exact absurd hc hb

/-- Once a backend no longer collects, its holdings stay. -/
theorem Moves.frozen {b b' : Backend σ} (h : Moves b b') (hb : b.state ≠ .collecting) :
    b.SameHoldings b' := by
  induction h with
  | refl => exact ⟨rfl, rfl, rfl, rfl⟩
  | tail _ last ih =>
      obtain ⟨hs, hd, hr, hc⟩ := ih
      obtain ⟨hs', hd', hr', hc'⟩ := last.frozen (by rw [hs]; exact hb)
      exact ⟨hs'.trans hs, hd'.trans hd, hr'.trans hr, hc'.trans hc⟩

/-- A new backend collects and holds nothing but providers. -/
theorem make_ok {id : Value} {config : Config σ} {b : Backend σ} {journal : Journal}
    (h : make id config = (.ok b, journal)) :
    ∃ r, (Registry.ofList (config.providers.getD [])).1 = .ok r
      ∧ b = ⟨id, config, r, [], .collecting, [], []⟩ := by
  unfold make at h
  split at h
  · cases h
  · rcases hr : Registry.ofList (config.providers.getD []) with ⟨r | r, events⟩
    · rw [hr] at h; cases h
    · rw [hr] at h
      cases h
      exact ⟨r, rfl, rfl⟩

end Backend

-- ============================================================= starting

/-- The two ways in which starting a backend that collects ends. -/
theorem Session.step_start_cases (s : Session σ) (hs : s.backend.state = .collecting)
    (settings : Except Fault Settings) (scope : Scope) :
    (∃ summary s', s.step (.start settings scope) = (.ok (.summary summary), s')
        ∧ s'.backend.state = .initialized)
      ∨ ∃ phase cause site s',
        StopsIn s.backend settings (s.backend.begun ⟨s.desk, scope⟩) phase cause site
          ∧ s.step (.start settings scope)
            = (.error (.initializationFailure s.backend.id (.str phase.name) cause), s')
          ∧ s'.backend.state = .failed := by
  have hstep : s.step (.start settings scope)
      = (((s.backend.start settings).run ⟨s.desk, scope⟩).1.1.map .summary,
        ⟨((s.backend.start settings).run ⟨s.desk, scope⟩).1.2,
          ((s.backend.start settings).run ⟨s.desk, scope⟩).2.toDesk⟩) := rfl
  rw [hstep]
  rcases h : (s.backend.start settings).run ⟨s.desk, scope⟩ with ⟨⟨fault | summary, b'⟩, site⟩
  · obtain ⟨rfl, phase, cause, site', hstop, rfl, rfl⟩ := (start_error_iff hs).1 h
    exact Or.inr ⟨phase, cause, site', _, hstop, rfl, rfl⟩
  · obtain ⟨p, site', -, -, rfl, -⟩ := (start_ok_iff hs).1 h
    exact Or.inl ⟨summary, _, rfl, rfl⟩

/-- A session that leaves its backend alone and reports nothing is the
session before. -/
theorem Session.leave_self (s : Session σ) : s.leave s.backend [] = s := by
  simp [leave]

/-- A backend that no longer collects takes no definition and does not
start again; trying changes nothing. -/
theorem Session.step_refused (s : Session σ) (hs : s.backend.state ≠ .collecting) :
    (∀ offered, ∃ fault, s.step (.add offered) = (.error fault, s))
      ∧ (∀ offered rest, ∃ fault, s.step (.addAll (offered :: rest)) = (.error fault, s))
      ∧ ∀ settings scope, ∃ fault, s.step (.start settings scope) = (.error fault, s) := by
  have hadd : ∀ offered, ∃ fault, s.backend.add offered = (s.backend, .error fault) := by
    intro offered
    cases h : s.backend.accept offered with
    | error fault => exact ⟨fault, add_of_refused h⟩
    | ok d => exact absurd (accept_ok h).2.1 hs
  refine ⟨fun offered => ?_, fun offered rest => ?_, fun settings scope => ?_⟩
  · obtain ⟨fault, h⟩ := hadd offered
    refine ⟨fault, ?_⟩
    simp only [step, h]
    exact congrArg (Prod.mk _) s.leave_self
  · obtain ⟨fault, h⟩ := hadd offered
    refine ⟨fault, ?_⟩
    simp only [step, Backend.addAll, h, leave_self]
    rfl
  · obtain ⟨why, h⟩ := start_run_of_ne hs settings ⟨s.desk, scope⟩
    refine ⟨.initialization why s.backend.id (.str "state"), ?_⟩
    simp only [step]
    rw [h]
    rfl

-- ========================================================== main result

/-- The life of a backend over every session, whatever its collaborators
do and in whatever order it is used. Nothing is published before it is
initialised. Starting it while it collects publishes, or one phase stops
and the failure names that phase and carries the fault that stopped it.
From then on it is over: no operation changes what the backend holds,
and every attempt to add to it or to start it again is refused. -/
theorem Session.state_moves_forward {id : Value} {config : Config σ} {b : Backend σ}
    {journal : Journal} (made : Backend.make id config = (.ok b, journal))
    (desk : Desk σ) (ops : List (Operation σ)) :
    let s := run ⟨b, desk⟩ ops
    (s.backend.state ≠ .initialized → s.backend.resources = [] ∧ s.backend.components = [])
    ∧ (s.backend.state = .collecting → ∀ settings scope,
        (∃ summary s', s.step (.start settings scope) = (.ok (.summary summary), s')
            ∧ s'.backend.state = .initialized)
          ∨ ∃ phase cause site fault s',
            StopsIn s.backend settings (s.backend.begun ⟨s.desk, scope⟩) phase cause site
              ∧ s.step (.start settings scope) = (.error fault, s')
              ∧ fault.kind? = some .initialization
              ∧ Fields.get? fault.details "phase" = some (.str phase.name)
              ∧ fault.cause? = some cause
              ∧ s'.backend.state = .failed)
    ∧ (s.backend.state ≠ .collecting → ∀ more,
        let s' := s.run more
        s.backend.SameHoldings s'.backend
          ∧ (∀ offered, ∃ fault, s'.step (.add offered) = (.error fault, s'))
          ∧ (∀ offered rest, ∃ fault, s'.step (.addAll (offered :: rest)) = (.error fault, s'))
          ∧ ∀ settings scope, ∃ fault, s'.step (.start settings scope) = (.error fault, s')) := by
  intro s
  refine ⟨?_, fun hs settings scope => ?_, fun hs more => ?_⟩
  · obtain ⟨r, -, rfl⟩ := make_ok made
    exact (moves_run _ ops).unpublished fun _ => ⟨rfl, rfl⟩
  · rcases s.step_start_cases hs settings scope with h | ⟨phase, cause, site, s', hstop, h, hf⟩
    · exact Or.inl h
    · exact Or.inr ⟨phase, cause, site, _, s', hstop, h,
        Fault.kind?_initializationFailure .., Fault.phase_initializationFailure ..,
        Fault.cause?_initializationFailure .., hf⟩
  · have held := (s.moves_run more).frozen hs
    have stopped : (s.run more).backend.state ≠ .collecting := by
      rw [held.1]
      exact hs
    exact ⟨held, (s.run more).step_refused stopped⟩

/-- A component that cannot be made. -/
def unmakeable : Definition Unit :=
  ⟨.str "api", some (.str "spec"), fun _ _ _ => throw (.gaveUp "boom"), .object []⟩

/-- A backend with a component that cannot be made fails to start, and
neither adding the component again nor starting again changes that. -/
theorem Session.unmakeable_component_is_final :
    let config : Config Unit := { environment := some "dev" }
    let b : Backend Unit := ⟨.str "app", config, {}, [], .collecting, [], []⟩
    let start : Operation Unit := .start (.ok {}) (.node (.str "root") (.str "root") [] [])
    let failed := run ⟨b, ⟨(), []⟩⟩ [.add (.definition unmakeable), start]
    Backend.make (.str "app") config = (.ok b, [])
      ∧ failed.backend.state = .failed
      ∧ failed.backend.SameHoldings
          (failed.run [.add (.definition unmakeable), .validate, start]).backend := by
  intro config b start failed
  have made : Backend.make (.str "app") config = (.ok b, []) := rfl
  have stopped : failed.backend.state = .failed := rfl
  have final := (state_moves_forward made ⟨(), []⟩ [.add (.definition unmakeable), start]).2.2
    (by rw [stopped]; decide) [.add (.definition unmakeable), .validate, start]
  exact ⟨made, stopped, final.1⟩

end Depot
