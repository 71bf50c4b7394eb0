/-
The phases of an initialisation taken apart. `start` runs five phases one
after the other; here each beginning of that run is work of its own
(`collected`, `prepared`, `provisioned`), and the whole run is the last
beginning with the last phase behind it (`runPhases_eq`).

A run that fails does so in exactly one phase. `StopsIn` says in which
one, with which fault and where: the phases before it succeeded, and the
phase's own work, run where they left off, failed. It is said without
`start`, so that `runPhases_error_iff` and `start_error_iff` have two
sides: a failed initialisation is a phase that stopped, reported and
wrapped, and nothing else.
-/
import Depot.Backend.Initialization
import Depot.Proofs.Work

namespace Depot

-- =================================================== the wrapped fault

namespace Fault

variable (backendId phase : Value) (cause : Fault)

/-- A failed phase is reported as an initialisation error, whatever the
cause. -/
theorem kind?_initializationFailure :
    (initializationFailure backendId phase cause).kind? = some .initialization := rfl

/-- The report keeps the cause. -/
theorem cause?_initializationFailure :
    (initializationFailure backendId phase cause).cause? = some cause := rfl

/-- The phase is among the details, whatever brought the failure
about. -/
theorem phase_initializationFailure :
    Fields.get? (initializationFailure backendId phase cause).details "phase" = some phase := by
  cases cause with
  | failure kind message details configs cause => rfl
  | _ => rfl

end Fault

/-- Different phases have different names. -/
theorem Phase.name_injective {p q : Phase} (h : p.name = q.name) : p = q := by
  cases p with
  | _ =>
      cases q with
      | _ => simp_all [Phase.name]

/-- A wrapped fault tells the phase it was wrapped in. -/
theorem phase_of_initializationFailure {id : Value} {p q : Phase} {cause cause' : Fault}
    (h : Fault.initializationFailure id (.str p.name) cause
      = .initializationFailure id (.str q.name) cause') : p = q := by
  have hp := Fault.phase_initializationFailure id (.str p.name) cause
  rw [h, Fault.phase_initializationFailure] at hp
  refine Phase.name_injective ?_
  injection hp with hp
  injection hp with hp
  exact hp.symm

namespace Backend

variable {σ α : Type}

-- ============================================================ one phase

/-- The site with the entry that begins a phase. -/
def entering (b : Backend σ) (phase : Phase) (s : Site σ) : Site σ :=
  { s with journal := s.journal ++
      [b.event .debug "backend_phase_started" [("phase", .str phase.name)]] }

/-- The site with the entry about a phase that failed. -/
def reporting (b : Backend σ) (phase : Phase) (cause : Fault) (s : Site σ) : Site σ :=
  { s with journal := s.journal ++
      [Event.initializationFailed b.id (.str phase.name) cause] }

/-- A phase does its work at the site it entered, and wraps what goes wrong
there. -/
theorem run_inPhase (b : Backend σ) (phase : Phase) (w : SiteWork σ α) (s : Site σ) :
    (b.inPhase phase w).run s = match w.run (b.entering phase s) with
      | (.ok a, s') => (.ok a, s')
      | (.error cause, s') =>
          (.error (.initializationFailure b.id (.str phase.name) cause),
            b.reporting phase cause s') := by
  rcases hw : w.run (b.entering phase s) with ⟨cause | a, s'⟩
  · unfold entering at hw
    simp only [inPhase, ExceptT.run_mk, bind_apply, modify_apply, hw]
    rfl
  · unfold entering at hw
    simp only [inPhase, ExceptT.run_mk, bind_apply, modify_apply, hw]
    rfl

/-- A phase that succeeds gives what its work gives. -/
theorem run_inPhase_ok {b : Backend σ} {phase : Phase} {w : SiteWork σ α} {s s' : Site σ} {a : α} :
    (b.inPhase phase w).run s = (.ok a, s') ↔ w.run (b.entering phase s) = (.ok a, s') := by
  rw [run_inPhase]
  constructor
  · intro h
    split at h
    next a' s'' hw =>
      rw [hw]
      exact h
    next cause s'' hw => cases h
  · intro h
    rw [h]

/-- A phase that fails wraps the fault of its work. -/
theorem run_inPhase_error {b : Backend σ} {phase : Phase} {w : SiteWork σ α} {s s'' : Site σ}
    {fault : Fault} :
    (b.inPhase phase w).run s = (.error fault, s'') ↔
      ∃ cause s', w.run (b.entering phase s) = (.error cause, s')
        ∧ fault = .initializationFailure b.id (.str phase.name) cause
        ∧ s'' = b.reporting phase cause s' := by
  rw [run_inPhase]
  constructor
  · intro h
    split at h
    next a s' hw => cases h
    next cause s' hw =>
      cases h
      exact ⟨cause, s', hw, rfl, rfl⟩
  · rintro ⟨cause, s', hw, rfl, rfl⟩
    rw [hw]

-- ============================================== beginnings of the run

/-- The work of collecting under the caller's scope, which it marks. -/
def collecting (b : Backend σ) (settings : Except Fault Settings) :
    SiteWork σ (List (Request σ)) := do
  let mark ← SiteWork.ofExcept (b.mark settings)
  SiteWork.mark mark
  SiteWork.ofWork (b.collect mark)

/-- The run through the first phase: the requests of all components. -/
def collected (b : Backend σ) (settings : Except Fault Settings) :
    SiteWork σ (List (Request σ)) :=
  b.inPhase .collect (b.collecting settings)

/-- The run through the first three phases: all requests, and the merged
ones that are handed to provisioning. -/
def prepared (b : Backend σ) (settings : Except Fault Settings) :
    SiteWork σ (List (Request σ) × List (Request σ)) := do
  let requests ← b.collected settings
  b.inPhase .validate (SiteWork.ofWork (b.checkRequests requests))
  let merged ← b.inPhase .merge (SiteWork.ofWork (b.mergeGroups requests))
  return (requests, merged)

/-- The requests were collected first. -/
theorem collected_of_prepared {b : Backend σ} {settings : Except Fault Settings} {s s' : Site σ}
    {requests merged : List (Request σ)}
    (h : (b.prepared settings).run s = (.ok (requests, merged), s')) :
    ∃ s₁, (b.collected settings).run s = (.ok requests, s₁) := by
  obtain ⟨requests', s₁, hcollected, h⟩ := run_bind_ok.1 h
  obtain ⟨_, _, -, h⟩ := run_bind_ok.1 h
  obtain ⟨_, _, -, h⟩ := run_bind_ok.1 h
  cases h
  exact ⟨s₁, hcollected⟩

/-- The run through the first four phases: the finished resources. -/
def provisioned (b : Backend σ) (settings : Except Fault Settings) : SiteWork σ Resources := do
  let (requests, merged) ← b.prepared settings
  b.inPhase .provision (b.provisionAll settings merged (groups requests))

/-- The whole run is the first four phases and the last. -/
theorem runPhases_eq (b : Backend σ) (settings : Except Fault Settings) :
    b.runPhases settings = do
      let resources ← b.provisioned settings
      let components ← b.inPhase .initializeComponents
        (b.definitions.mapM (b.startOne resources))
      return ⟨resources, components⟩ := by
  simp only [runPhases, provisioned, prepared, collected, collecting, bind_assoc, pure_bind]

-- ============================================================ stopping

/-- An initialisation stops in a phase: those before it succeeded, and its
own work failed with the fault, leaving the site behind. -/
inductive StopsIn (b : Backend σ) (settings : Except Fault Settings) (s : Site σ) :
    Phase → Fault → Site σ → Prop where
  | collect {cause s'}
      (stopped : (b.collecting settings).run (b.entering .collect s) = (.error cause, s')) :
      StopsIn b settings s .collect cause s'
  | validate {requests s₁ cause s'}
      (collected : (b.collected settings).run s = (.ok requests, s₁))
      (stopped : (SiteWork.ofWork (b.checkRequests requests)).run (b.entering .validate s₁)
        = (.error cause, s')) :
      StopsIn b settings s .validate cause s'
  | merge {requests s₁ s₂ cause s'}
      (collected : (b.collected settings).run s = (.ok requests, s₁))
      (checked : (SiteWork.ofWork (b.checkRequests requests)).run (b.entering .validate s₁)
        = (.ok (), s₂))
      (stopped : (SiteWork.ofWork (b.mergeGroups requests)).run (b.entering .merge s₂)
        = (.error cause, s')) :
      StopsIn b settings s .merge cause s'
  | provision {requests merged s₁ cause s'}
      (prepared : (b.prepared settings).run s = (.ok (requests, merged), s₁))
      (stopped : (b.provisionAll settings merged (groups requests)).run
        (b.entering .provision s₁) = (.error cause, s')) :
      StopsIn b settings s .provision cause s'
  | initializeComponents {resources s₁ cause s'}
      (provisioned : (b.provisioned settings).run s = (.ok resources, s₁))
      (stopped : (b.definitions.mapM (b.startOne resources)).run
        (b.entering .initializeComponents s₁) = (.error cause, s')) :
      StopsIn b settings s .initializeComponents cause s'

/-- The first three phases fail exactly where one of them stops. -/
theorem prepared_error_iff {b : Backend σ} {settings : Except Fault Settings} {s s'' : Site σ}
    {fault : Fault} :
    (b.prepared settings).run s = (.error fault, s'') ↔
      ∃ phase ∈ [Phase.collect, .validate, .merge], ∃ cause s',
        StopsIn b settings s phase cause s'
          ∧ fault = .initializationFailure b.id (.str phase.name) cause
          ∧ s'' = b.reporting phase cause s' := by
  simp only [prepared, run_bind_error, run_pure]
  constructor
  · rintro (h | ⟨requests, s₁, hc, h | ⟨_, s₂, hv, h | ⟨merged, s₃, -, h⟩⟩⟩)
    · obtain ⟨cause, s', h, hf, hs⟩ := run_inPhase_error.1 h
      exact ⟨.collect, by simp, cause, s', .collect h, hf, hs⟩
    · obtain ⟨cause, s', h, hf, hs⟩ := run_inPhase_error.1 h
      exact ⟨.validate, by simp, cause, s', .validate hc h, hf, hs⟩
    · obtain ⟨cause, s', h, hf, hs⟩ := run_inPhase_error.1 h
      exact ⟨.merge, by simp, cause, s', .merge hc (run_inPhase_ok.1 hv) h, hf, hs⟩
    · cases h
  · rintro ⟨phase, hp, cause, s', h, rfl, rfl⟩
    cases h with
    | collect h => exact .inl (run_inPhase_error.2 ⟨cause, s', h, rfl, rfl⟩)
    | validate hc h =>
        exact .inr ⟨_, _, hc, .inl (run_inPhase_error.2 ⟨cause, s', h, rfl, rfl⟩)⟩
    | merge hc hv h =>
        exact .inr ⟨_, _, hc, .inr ⟨(), _, run_inPhase_ok.2 hv,
          .inl (run_inPhase_error.2 ⟨cause, s', h, rfl, rfl⟩)⟩⟩
    | provision _ _ => simp at hp
    | initializeComponents _ _ => simp at hp

/-- An initialisation's phases fail exactly where one of them stops; the
fault is wrapped under the name of that phase, and reported. -/
theorem runPhases_error_iff {b : Backend σ} {settings : Except Fault Settings} {s s'' : Site σ}
    {fault : Fault} :
    (b.runPhases settings).run s = (.error fault, s'') ↔
      ∃ phase cause s', StopsIn b settings s phase cause s'
        ∧ fault = .initializationFailure b.id (.str phase.name) cause
        ∧ s'' = b.reporting phase cause s' := by
  rw [runPhases_eq]
  simp only [provisioned, run_bind_error, run_bind_ok, run_pure, prepared_error_iff]
  constructor
  · rintro ((⟨phase, -, cause, s', h⟩ | ⟨⟨requests, merged⟩, s₁, hp, h⟩)
      | ⟨resources, s₁, ⟨⟨requests, merged⟩, s₀, hp, hr⟩, h | ⟨components, s₂, -, h⟩⟩)
    · exact ⟨phase, cause, s', h⟩
    · obtain ⟨cause, s', h, hf, hs⟩ := run_inPhase_error.1 h
      exact ⟨.provision, cause, s', .provision hp h, hf, hs⟩
    · obtain ⟨cause, s', h, hf, hs⟩ := run_inPhase_error.1 h
      refine ⟨.initializeComponents, cause, s', .initializeComponents ?_ h, hf, hs⟩
      exact run_bind_ok.2 ⟨_, _, hp, hr⟩
    · cases h
  · rintro ⟨phase, cause, s', h, rfl, rfl⟩
    cases h with
    | collect h => exact .inl (.inl ⟨.collect, by simp, cause, s', .collect h, rfl, rfl⟩)
    | validate hc h =>
        exact .inl (.inl ⟨.validate, by simp, cause, s', .validate hc h, rfl, rfl⟩)
    | merge hc hv h =>
        exact .inl (.inl ⟨.merge, by simp, cause, s', .merge hc hv h, rfl, rfl⟩)
    | provision hp h =>
        exact .inl (.inr ⟨_, _, hp, run_inPhase_error.2 ⟨cause, s', h, rfl, rfl⟩⟩)
    | initializeComponents hp h =>
        exact .inr ⟨_, _, run_bind_ok.1 hp,
          .inl (run_inPhase_error.2 ⟨cause, s', h, rfl, rfl⟩)⟩

-- ============================================================ starting

/-- The site with the entry that begins an initialisation. -/
def begun (b : Backend σ) (s : Site σ) : Site σ :=
  { s with journal := s.journal ++ [b.event .info "backend_initialization_started"
      [("components", .int b.definitions.length)]] }

/-- The site with the entry that ends an initialisation. -/
def finished (b : Backend σ) (p : Published σ) (s : Site σ) : Site σ :=
  { s with journal := s.journal ++ [b.event .info "backend_initialized"
      [("components", .int p.components.length), ("resources", .int p.resources.length)]] }

/-- The backend with what an initialisation publishes. -/
def published (b : Backend σ) (p : Published σ) : Backend σ :=
  { b with state := .initialized, resources := p.resources, components := p.components }

/-- Starting a backend that collects is running its phases; their outcome
decides between publishing everything and publishing nothing. -/
theorem start_run {b : Backend σ} (hb : b.state = .collecting)
    (settings : Except Fault Settings) (s : Site σ) :
    (b.start settings).run s = match (b.runPhases settings).run (b.begun s) with
      | (.error fault, s') => ((.error fault, { b with state := .failed }), s')
      | (.ok p, s') =>
          ((.ok ⟨b.id, p.components.keys, p.resources.keys⟩, b.published p),
            b.finished p s') := by
  have hn : b.notCollecting = none := by simp [notCollecting, hb]
  rcases hp : (b.runPhases settings).run (b.begun s) with ⟨fault | p, s'⟩
  · unfold begun at hp
    simp only [start, hn, StateT.run, bind_apply, modify_apply, hp]
    rfl
  · unfold begun at hp
    simp only [start, hn, StateT.run, bind_apply, modify_apply, hp]
    rfl

/-- A backend that no longer collects refuses to start and stays as it
is. -/
theorem start_run_of_ne {b : Backend σ} (hb : b.state ≠ .collecting)
    (settings : Except Fault Settings) (s : Site σ) :
    ∃ why, (b.start settings).run s
      = ((.error (.initialization why b.id (.str "state")), b), s) := by
  cases h : b.state with
  | collecting => exact absurd h hb
  | initialized =>
      refine ⟨s!"Backend \"{b.id.label}\" has already been initialized", ?_⟩
      simp only [start, notCollecting, h]
      rfl
  | failed =>
      refine ⟨s!"Backend \"{b.id.label}\" failed to initialize and cannot be reused", ?_⟩
      simp only [start, notCollecting, h]
      rfl

/-- Only a backend that collects can start. -/
theorem collecting_of_start_ok {b b' : Backend σ} {settings : Except Fault Settings}
    {s s' : Site σ} {summary : Summary}
    (started : (b.start settings).run s = ((.ok summary, b'), s')) : b.state = .collecting := by
  by_contra hne
  obtain ⟨why, hrefused⟩ := start_run_of_ne hne settings s
  rw [started] at hrefused
  cases hrefused

/-- A successful start went through all phases. -/
theorem start_ok_iff {b : Backend σ} (hb : b.state = .collecting)
    {settings : Except Fault Settings} {s s'' : Site σ} {summary : Summary} {b' : Backend σ} :
    (b.start settings).run s = ((.ok summary, b'), s'') ↔
      ∃ p s', (b.runPhases settings).run (b.begun s) = (.ok p, s')
        ∧ summary = ⟨b.id, p.components.keys, p.resources.keys⟩
        ∧ b' = b.published p ∧ s'' = b.finished p s' := by
  rw [start_run hb]
  constructor
  · intro h
    split at h
    next fault s' hp => cases h
    next p s' hp =>
      cases h
      exact ⟨p, s', hp, rfl, rfl, rfl⟩
  · rintro ⟨p, s', hp, rfl, rfl, rfl⟩
    rw [hp]

/-- A failed start stopped in a phase. -/
theorem start_error_iff {b : Backend σ} (hb : b.state = .collecting)
    {settings : Except Fault Settings} {s s'' : Site σ} {fault : Fault} {b' : Backend σ} :
    (b.start settings).run s = ((.error fault, b'), s'') ↔
      b' = { b with state := .failed } ∧ ∃ phase cause s',
        StopsIn b settings (b.begun s) phase cause s'
          ∧ fault = .initializationFailure b.id (.str phase.name) cause
          ∧ s'' = b.reporting phase cause s' := by
  rw [start_run hb, ← runPhases_error_iff]
  constructor
  · intro h
    split at h
    next fault' s' hp =>
      cases h
      exact ⟨rfl, hp⟩
    next p s' hp => cases h
  · rintro ⟨rfl, hp⟩
    rw [hp]

end Backend

end Depot
