/-
What a whole initialisation records. `start_watched` is the reason why
watching may be trusted: the watched backend fails where the plain one
fails and publishes what the plain one publishes, leaves the same journal
and the same scope, and differs in nothing but the calls on its list.

The calls of the whole run are those of its phases one after the other.
Up to the merge phase none of them makes a resource (`records_prepared`);
then there is one for each merged requirement, in order, each seeing what
was made before it (`Provides`); and at the end there are two for each
component, which is made with the finished resources and started with
them (`Starts`).
-/
import Depot.Proofs.Backend.Phases
import Depot.Proofs.Watching.Preparation

namespace Depot

variable {σ α α' : Type}

namespace Backend

-- ============================================================== phases

/-- A phase records what its work records. -/
theorem records_inPhase {f : α → α'} {allowed : Call → Prop} {made : α → List Call → Prop}
    {w : SiteWork σ α} {w' : SiteWork (Watched σ) α'} (b : Backend σ) (phase : Phase)
    (h : Records Site.watched f allowed made w w') :
    Records Site.watched f allowed made (b.inPhase phase w) (b.watched.inPhase phase w') := by
  intro s calls
  obtain ⟨added, hrun, hall, hres⟩ := h (b.entering phase s) calls
  have hentering : b.watched.entering phase (s.watched calls)
      = (b.entering phase s).watched calls := rfl
  refine ⟨added, ?_, hall, ?_⟩
  · rw [run_inPhase, run_inPhase, hentering, hrun]
    rcases w.run (b.entering phase s) with ⟨cause | a, s'⟩
    · rfl
    · rfl
  · intro a ha
    refine hres a ?_
    rw [run_inPhase] at ha
    rcases hw : w.run (b.entering phase s) with ⟨cause | a', s'⟩
    · rw [hw] at ha
      cases ha
    · rw [hw] at ha
      exact ha

theorem silent_mark (m : BackendMark) :
    Silent Site.watched (fun u => u) (SiteWork.mark m : SiteWork σ Unit) (SiteWork.mark m) :=
  .unseen fun _ _ => rfl

/-- The calls of the collect phase. -/
def creations (b : Backend σ) (resources : Supply) : List Call :=
  b.definitions.map fun e => .create e.2.id resources

/-- The phase of collecting makes each component once. -/
theorem records_collected (b : Backend σ) (settings : Except Fault Settings) :
    Records Site.watched (List.map Request.watched) Call.Harmless
      (fun _ added => added = b.creations (.resources []))
      (b.collected settings) (b.watched.collected settings) := by
  refine b.records_inPhase .collect ?_
  refine .afterSilent (.givenAt _) fun mark _ => ?_
  refine .afterSilent (silent_mark mark) fun _ _ => ?_
  exact .ofWork (b.records_collect mark)

/-- Up to the merge phase each factory is called once, without resources,
and each group with several members is merged by one call. -/
theorem records_prepared (b : Backend σ) (settings : Except Fault Settings) :
    Records Site.watched (fun r => (r.1.map Request.watched, r.2.map Request.watched))
      Call.Harmless
      (fun r added => ∃ merges, added = b.creations (.resources []) ++ merges
        ∧ Each (Merges b) (groups r.1) r.2 merges)
      (b.prepared settings) (b.watched.prepared settings) := by
  refine .bind (b.records_collected settings) fun requests first hfirst => ?_
  refine .afterSilent (b.records_inPhase .validate (.ofWork (b.silent_checkRequests requests)))
    fun _ _ => ?_
  refine .bind (b.records_inPhase .merge (.ofWork (b.records_mergeGroups requests)))
    fun merged merges hmerges => ?_
  refine .pure (f := fun r => (r.1.map Request.watched, r.2.map Request.watched))
    (a := (requests, merged)) ?_
  exact ⟨merges, by rw [hfirst, List.append_nil], hmerges⟩

-- ======================================================== provisioning

/-- How a resource is made: by one call of the provider that was found for
the requirement, which sees what was made before. -/
inductive Provides (b : Backend σ) (context : Provisioning) (staged : Resources)
    (r : Requirement) : Resources → List Call → Prop where
  | mk {p d d' resource} (found : (b.registry.find r).run d = (.ok p, d')) :
      Provides b context staged r (Table.put r.resourceKey resource staged)
        [.provide p.id r { context with existing := staged }]

/-- One resource is made by one call. -/
theorem records_provisionOne (b : Backend σ) (context : Provisioning) (staged : Resources)
    (r : Requirement) :
    Records Site.watched (fun rs => rs) (fun _ => True) (Provides b context staged r)
      (b.provisionOne context staged r) (b.watched.provisionOne context staged r) := by
  refine .afterSilent (.ofWork (b.registry.silent_find r)) fun p hfound => ?_
  obtain ⟨s, s', hfound⟩ := hfound
  refine .afterSilent (.ofWork (Records.watched (p.validateMerged r))) fun verdict _ => ?_
  cases verdict.valid with
  | false => exact .afterSilent (.givenAt _) fun list _ => .throw _
  | true =>
      have hprovide : Records Site.watched (fun x => x) (fun _ => True)
          (fun _ added => added = [.provide p.id r { context with existing := staged }])
          (p.provide r { context with existing := staged })
          (p.watched.provide r { context with existing := staged }) :=
        .noteAt trivial (.ofSilent (Records.watchedAt _) fun _ _ _ _ => rfl)
      refine .bind (.rephraseAt _ hprovide) fun resource added hadded => ?_
      refine .afterSilent (.reportAt _) fun _ _ => .pure ?_
      rw [List.append_nil, hadded]
      rw [SiteWork.run_ofWork] at hfound
      injection hfound with hfound hsite
      exact .mk (Prod.ext hfound rfl)

/-- The limit of apps is checked on watched groups as on plain ones. -/
theorem checkApps_watched (limits : Limits) (gs : List (String × List (Request σ))) :
    checkApps limits (gs.map fun g => (g.1, g.2.map Request.watched)) = checkApps limits gs := by
  unfold checkApps
  cases limits.functionsPerApp with
  | none => rfl
  | some limit =>
      simp only [List.forIn_map, List.length_map, List.head?_map, Option.map_map]
      rfl

/-- Checking the quotas reads nothing that is watched. -/
theorem checkLimits_watched (b : Backend σ) (requests merged : List (Request σ)) :
    b.watched.checkLimits (merged.map Request.watched) (groups (requests.map Request.watched))
      = b.checkLimits merged (groups requests) := by
  unfold checkLimits
  rw [groups_watched, map_toRequirement_watched, checkApps_watched]
  rfl

/-- Provisioning is one call for each merged requirement. The quotas are
checked and the context is made before the first. -/
theorem records_provisionAll (b : Backend σ) (settings : Except Fault Settings)
    (requests merged : List (Request σ)) :
    Records Site.watched (fun rs => rs) (fun _ => True)
      (fun resources added => b.checkLimits merged (groups requests) = .ok ()
        ∧ ∃ context, b.provisioning settings = .ok context
          ∧ Along (Provides b context) [] (merged.map Request.toRequirement) resources added)
      (b.provisionAll settings merged (groups requests))
      (b.watched.provisionAll settings (merged.map Request.watched)
        (groups (requests.map Request.watched))) := by
  unfold provisionAll
  rw [checkLimits_watched, map_toRequirement_watched]
  refine .afterSilent (.givenAt _) fun _ hlimits => ?_
  refine .afterSilent (.givenAt _) fun context hcontext => ?_
  obtain ⟨_, _, hlimits⟩ := hlimits
  obtain ⟨_, _, hcontext⟩ := hcontext
  injection hlimits with hlimits
  injection hcontext with hcontext
  have hall : Records Site.watched (fun rs => rs) (fun _ => True)
      (Along (Provides b context) [] (merged.map Request.toRequirement))
      ((merged.map Request.toRequirement).foldlM (b.provisionOne context) [])
      ((merged.map Request.toRequirement).foldlM (b.watched.provisionOne context) []) := by
    have hfold := Records.foldlM (e := fun r => r) (f := fun rs => rs)
      (fun staged r (_ : r ∈ merged.map Request.toRequirement) =>
        b.records_provisionOne context staged r) []
    rwa [List.map_id'] at hfold
  refine hall.mono (fun _ hc => hc) ?_
  exact fun _ _ resources added _ hadded => ⟨hlimits, context, hcontext, hadded⟩

-- ========================================================== components

/-- How a component is started: one call of its factory with the finished
resources, and one call of what came out of it with the same. -/
inductive Starts (resources : Resources) (entry : Value × Definition σ) :
    Value × Component σ → List Call → Prop where
  | mk {c : Component σ} (initialized : c.initialized = true)
      (given : c.resources = .resources resources) :
      Starts resources entry (entry.1, c)
        [.create entry.2.id (.resources resources), .start c.id (.resources resources)]

/-- One component is made and started by two calls. -/
theorem records_startOne (b : Backend σ) (resources : Resources)
    (entry : Value × Definition σ) :
    Records Site.watched (fun e => (e.1, e.2.watched)) (fun _ => True)
      (Starts resources entry)
      (b.startOne resources entry)
      (b.watched.startOne resources (entry.1, entry.2.watched)) := by
  have hstart : ∀ c : Component σ,
      Records Site.watched Component.watched (fun _ => True)
        (fun c' added => c' = { c with resources := .resources resources, initialized := true }
          ∧ added = [.start c.id (.resources resources)])
        (c.activate (.resources resources)) (c.watched.activate (.resources resources)) := by
    intro c
    have hcall : Records Site.watched (fun u => u) (fun _ => True)
        (fun _ added => added = [.start c.id (.resources resources)])
        (c.start (.resources resources)) (c.watched.start (.resources resources)) :=
      .noteAt trivial (.ofSilent (Records.watchedAt _) fun _ _ _ _ => rfl)
    refine .bind hcall fun _ added hadded => ?_
    refine .pure (f := Component.watched)
      (a := { c with resources := .resources resources, initialized := true }) ?_
    exact ⟨rfl, by rw [List.append_nil, hadded]⟩
  have hmade : Records Site.watched Component.watched (fun _ => True)
      (fun c added => Starts resources entry (entry.1, c) added)
      (do (← entry.2.create (.resources resources)).activate (.resources resources))
      (do (← entry.2.watched.create (.resources resources)).activate (.resources resources)) := by
    refine .bind ((entry.2.records_create _).mono (fun _ _ => trivial) fun _ _ _ _ _ h => h)
      fun c first hfirst => ?_
    refine (hstart c).mono (fun _ hc => hc) ?_
    rintro _ _ c' added - ⟨rfl, rfl⟩
    rw [hfirst]
    exact .mk rfl rfl
  refine .bind (.rephraseAt _ hmade) fun c added hadded => ?_
  refine .afterSilent (.reportAt _) fun _ _ => ?_
  refine .pure (f := fun e => (e.1, e.2.watched)) (a := (entry.1, c)) ?_
  rw [List.append_nil]
  exact hadded

/-- All components are made and started in order, each by two calls. -/
theorem records_components (b : Backend σ) (resources : Resources) :
    Records Site.watched (List.map fun e => (e.1, e.2.watched)) (fun _ => True)
      (Each (Starts resources) b.definitions)
      (b.definitions.mapM (b.startOne resources))
      (b.watched.definitions.mapM (b.watched.startOne resources)) :=
  .mapM fun entry _ => b.records_startOne resources entry

-- ============================================================= the run

/-- What an initialisation publishes, watched. -/
def Published.watched (p : Published σ) : Published (Watched σ) :=
  ⟨p.resources, p.components.map fun e => (e.1, e.2.watched)⟩

/-- The phases record what they call. -/
theorem records_runPhases (b : Backend σ) (settings : Except Fault Settings) :
    Records Site.watched Published.watched (fun _ => True) (fun _ _ => True)
      (b.runPhases settings) (b.watched.runPhases settings) := by
  have hprovisioned : Records Site.watched (fun rs => rs) (fun _ => True) (fun _ _ => True)
      (b.provisioned settings) (b.watched.provisioned settings) := by
    refine .bind ((b.records_prepared settings).mono (fun _ _ => trivial) fun _ _ _ _ _ h => h)
      fun r _ _ => ?_
    exact (b.records_inPhase .provision (b.records_provisionAll settings r.1 r.2)).mono
      (fun _ hc => hc) fun _ _ _ _ _ _ => trivial
  rw [runPhases_eq, runPhases_eq]
  refine .bind hprovisioned fun resources _ _ => ?_
  refine .bind (b.records_inPhase .initializeComponents (b.records_components resources))
    fun components _ _ => ?_
  exact .pure (f := Published.watched) (a := ⟨resources, components⟩) trivial

theorem begun_watched (b : Backend σ) (s : Site σ) (calls : List Call) :
    b.watched.begun (s.watched calls) = (b.begun s).watched calls := by
  have hlength : b.watched.definitions.length = b.definitions.length := List.length_map _
  unfold begun
  rw [hlength]
  rfl

theorem keys_watched (components : Keyed (Component σ)) :
    Keyed.keys (components.map fun e => (e.1, e.2.watched)) = components.keys := by
  unfold Keyed.keys
  rw [List.map_map]
  rfl

theorem finished_watched (b : Backend σ) (p : Published σ) (s : Site σ) (calls : List Call) :
    b.watched.finished p.watched (s.watched calls) = (b.finished p s).watched calls := by
  have hlength : p.watched.components.length = p.components.length := List.length_map _
  unfold finished
  rw [hlength]
  rfl

/-- The watched backend does what the plain one does: it answers the same,
is the same afterwards and leaves the same journal and the same scope.
Only calls are added. -/
theorem start_watched (b : Backend σ) (settings : Except Fault Settings) (s : Site σ)
    (calls : List Call) :
    ∃ added, (b.watched.start settings).run (s.watched calls)
      = ((((b.start settings).run s).1.1, ((b.start settings).run s).1.2.watched),
        ((b.start settings).run s).2.watched (calls ++ added)) := by
  cases hb : b.state with
  | collecting =>
      obtain ⟨added, hrun, -, -⟩ := b.records_runPhases settings (b.begun s) calls
      refine ⟨added, ?_⟩
      rw [start_run hb, start_run (b := b.watched) hb, begun_watched, hrun]
      rcases (b.runPhases settings).run (b.begun s) with ⟨fault | p, s'⟩
      · rfl
      · simp only [Except.map]
        have hkeys : p.watched.components.keys = p.components.keys := keys_watched _
        rw [finished_watched, hkeys]
        rfl
  | initialized =>
      have hb' : b.watched.state = .initialized := hb
      refine ⟨[], ?_⟩
      simp only [start, notCollecting, hb, hb', List.append_nil]
      rfl
  | failed =>
      have hb' : b.watched.state = .failed := hb
      refine ⟨[], ?_⟩
      simp only [start, notCollecting, hb, hb', List.append_nil]
      rfl

/-- The calls of an initialisation are those of its phases. -/
theorem calls_of_run {b : Backend σ} (hb : b.state = .collecting)
    {settings : Except Fault Settings} {s s' : Site σ} {made : List Call}
    {r : Except Fault (Published (Watched σ))}
    (h : (b.watched.runPhases settings).run ((b.begun s).watched []) = (r, s'.watched made)) :
    b.calls settings s = made := by
  unfold calls
  rw [start_run (b := b.watched) hb, begun_watched, h]
  cases r with
  | error fault => rfl
  | ok p => rfl

-- ============================================================ failures

/-- A run that fails before provisioning makes no resource. -/
theorem harmless_of_prepared_error {b : Backend σ} (hb : b.state = .collecting)
    {settings : Except Fault Settings} {s s' : Site σ} {fault : Fault}
    (h : (b.prepared settings).run (b.begun s) = (.error fault, s')) :
    ∀ c ∈ b.calls settings s, c.Harmless := by
  obtain ⟨added, hrun, hall, -⟩ := b.records_prepared settings (b.begun s) []
  rw [h] at hrun
  have hphases : (b.watched.runPhases settings).run ((b.begun s).watched [])
      = (.error fault, s'.watched ([] ++ added)) := by
    simp only [runPhases_eq, provisioned, run_bind, hrun]
    rfl
  rw [calls_of_run hb hphases]
  exact hall

/-- A run that would exceed a quota makes no resource. -/
theorem harmless_of_checkLimits_error {b : Backend σ} (hb : b.state = .collecting)
    {settings : Except Fault Settings} {s s₁ : Site σ} {requests merged : List (Request σ)}
    {fault : Fault} (h : (b.prepared settings).run (b.begun s) = (.ok (requests, merged), s₁))
    (hlimits : b.checkLimits merged (groups requests) = .error fault) :
    ∀ c ∈ b.calls settings s, c.Harmless := by
  obtain ⟨added, hrun, hall, -⟩ := b.records_prepared settings (b.begun s) []
  rw [h] at hrun
  have hphases : (b.watched.runPhases settings).run ((b.begun s).watched [])
      = (.error (.initializationFailure b.id (.str Phase.provision.name) fault),
        (b.reporting .provision fault (b.entering .provision s₁)).watched ([] ++ added)) := by
    simp only [runPhases_eq, provisioned, run_bind, hrun]
    simp only [Except.map, run_inPhase, provisionAll, checkLimits_watched, hlimits, run_bind,
      SiteWork.run_ofExcept]
    rfl
  rw [calls_of_run hb hphases]
  exact hall

-- ============================================================ successes

/-- The course of an initialisation that published something: what was
collected and merged, and the calls of the phases. -/
structure Course (b : Backend σ) (settings : Except Fault Settings) (s : Site σ)
    (p : Published σ) where
  requests : List (Request σ)
  merged : List (Request σ)
  context : Provisioning
  merges : List Call
  provisions : List Call
  starts : List Call
  prepared : ∃ s₁, (b.prepared settings).run (b.begun s) = (.ok (requests, merged), s₁)
  merging : Each (Merges b) (groups requests) merged merges
  within : b.checkLimits merged (groups requests) = .ok ()
  reading : b.provisioning settings = .ok context
  providing : Along (Provides b context) [] (merged.map Request.toRequirement) p.resources
    provisions
  starting : Each (Starts p.resources) b.definitions p.components starts
  calls_eq : b.calls settings s = b.creations (.resources []) ++ merges ++ provisions ++ starts

/-- A start that published something has a course. -/
theorem exists_course {b : Backend σ} (hb : b.state = .collecting)
    {settings : Except Fault Settings} {s s' : Site σ} {p : Published σ}
    (h : (b.runPhases settings).run (b.begun s) = (.ok p, s')) :
    Nonempty (Course b settings s p) := by
  rw [runPhases_eq] at h
  obtain ⟨resources, s₂, hprovisioned, h⟩ := run_bind_ok.1 h
  obtain ⟨components, s₃, hcomponents, h⟩ := run_bind_ok.1 h
  obtain ⟨⟨requests, merged⟩, s₁, hprepared, hprovision⟩ := run_bind_ok.1 hprovisioned
  cases h
  -- each phase is judged where the one before left off
  obtain ⟨first, hfirst, -, hmade⟩ := b.records_prepared settings (b.begun s) []
  rw [hprepared] at hfirst hmade
  obtain ⟨merges, rfl, hmerges⟩ := hmade _ rfl
  obtain ⟨provisions, hsecond, -, hmade⟩ :=
    b.records_inPhase .provision (b.records_provisionAll settings requests merged) s₁
      ([] ++ (b.creations (.resources []) ++ merges))
  rw [hprovision] at hsecond hmade
  obtain ⟨hlimits, context, hcontext, hprovisions⟩ := hmade _ rfl
  obtain ⟨starts, hthird, -, hmade⟩ :=
    b.records_inPhase .initializeComponents (b.records_components resources) s₂
      ([] ++ (b.creations (.resources []) ++ merges) ++ provisions)
  rw [hcomponents] at hthird hmade
  have hstarts := hmade _ rfl
  refine ⟨requests, merged, context, merges, provisions, starts, ⟨s₁, hprepared⟩, hmerges,
    hlimits, hcontext, hprovisions, hstarts, ?_⟩
  have hphases : (b.watched.runPhases settings).run ((b.begun s).watched [])
      = (.ok (Published.watched ⟨resources, components⟩),
        s'.watched (b.creations (.resources []) ++ merges ++ provisions ++ starts)) := by
    simp only [runPhases_eq, provisioned, run_bind, hfirst]
    simp only [Except.map, hsecond]
    simp only [hthird]
    rfl
  exact calls_of_run hb hphases

end Backend

end Depot
