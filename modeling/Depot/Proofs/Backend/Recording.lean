/-
Plans write down what goes wrong. Collecting, every validator and every
merge are asked for their outcome, so a fault of theirs ends up on record
and the plan goes on. Two steps stand outside of that: looking for the
providers of what was collected, and listing the sources of a group that
was merged. A fault of one of those comes out of the plan
(`Backend.Escapes`); nothing else does.

The course of a plan is read off its run, step by step, without assuming
anything about collaborators: each phase starts at the desk that the one
before left, and what is on record is computed from their outcomes
(`Plan.Tells`).
-/
import Depot.Proofs.Backend.Lifecycle
import Depot.Proofs.Provider.Search
import Depot.Proofs.Watching.Plan

namespace Depot

variable {σ : Type}

-- ========================================================== searching

namespace Registry

/-- Looking for a provider fails: the type cannot be looked up, or a
provider fails when it is asked. -/
inductive Unaskable (reg : Registry σ) (r : Requirement) : Fault → Prop where
  | type (unnamed : r.type.canName = false) : Unaskable reg r r.type.cannotName
  | provider {p : Provider σ} {d d' : Desk σ} {fault : Fault} (registered : p ∈ reg.all)
      (fails : (p.canProvide r).run d = (.error fault, d')) : Unaskable reg r fault

variable {reg : Registry σ} {d d' : Desk σ} {fault : Fault}

/-- Only a type that cannot be looked up makes the look-up fail. -/
theorem forType_error {type : Value} (h : reg.forType type = .error fault) :
    type.canName = false ∧ fault = type.cannotName := by
  unfold forType at h
  rw [Keyed.find?_eq] at h
  split at h
  · cases h
  · next cannot =>
      cases h
      exact ⟨Bool.eq_false_iff.2 cannot, rfl⟩

/-- Asking providers in turn fails only where one of them fails. -/
theorem firstCapable_error {r : Requirement} {ps : List (Provider σ)}
    (h : (firstCapable r ps).run d = (.error fault, d')) :
    ∃ p ∈ ps, ∃ e e', (p.canProvide r).run e = (.error fault, e') := by
  induction ps generalizing d with
  | nil => cases h
  | cons p ps ih =>
      rcases run_bind_error.1 h with hfails | ⟨answer, d₁, -, h⟩
      · exact ⟨p, by simp, d, d', hfails⟩
      · cases answer with
        | true => cases h
        | false =>
            obtain ⟨q, hq, hfails⟩ := ih h
            exact ⟨q, by simp [hq], hfails⟩

/-- A search for a provider fails in one of the two ways. -/
theorem find?_error {r : Requirement} (h : (reg.find? r).run d = (.error fault, d')) :
    reg.Unaskable r fault := by
  rcases run_bind_error.1 h with hlisted | ⟨ps, d₁, hlisted, h⟩
  · obtain ⟨hname, rfl⟩ := forType_error (congrArg Prod.fst hlisted)
    exact .type hname
  · obtain ⟨p, hp, e, e', hfails⟩ := firstCapable_error h
    have hps := (Work.run_ofExcept_ok.1 hlisted).1
    exact .provider (mem_all_of_forType hps hp) hfails

/-- Listing the missing types fails only in a search for some requirement. -/
theorem missingTypes_error {missing : List Value} {rs : List Requirement}
    (h : (reg.missingTypes missing rs).run d = (.error fault, d')) :
    ∃ r ∈ rs, reg.Unaskable r fault := by
  induction rs generalizing missing d with
  | nil => cases h
  | cons r rs ih =>
      rcases run_bind_error.1 h with hfails | ⟨found, d₁, -, h⟩
      · exact ⟨r, by simp, find?_error hfails⟩
      · have hrest : ∃ q ∈ rs, reg.Unaskable q fault := by
          cases found with
          | none => exact ih h
          | some p => exact ih h
        obtain ⟨q, hq, hfails⟩ := hrest
        exact ⟨q, by simp [hq], hfails⟩

theorem canName_of_find? {r : Requirement} {found : Option (Provider σ)}
    (h : (reg.find? r).run d = (.ok found, d')) : r.type.canName = true := by
  obtain ⟨ps, d₁, hlisted, -⟩ := run_bind_ok.1 h
  exact canName_of_forType_ok (Work.run_ofExcept_ok.1 hlisted).1

/-- A type on the list stays there, and one that is not there at the end
had a provider each time. -/
theorem missingTypes_ok {missing missing' : List Value} {rs : List Requirement}
    (h : (reg.missingTypes missing rs).run d = (.ok missing', d')) :
    (∀ type : Value, type.isAmong missing = true → type.isAmong missing' = true)
      ∧ ∀ r ∈ rs, r.type.isAmong missing' = true ∨ ∃ p, (reg.find? r).Gives (some p) := by
  induction rs generalizing missing d with
  | nil =>
      cases h
      exact ⟨fun _ hin => hin, fun _ hr => by cases hr⟩
  | cons r rs ih =>
      obtain ⟨found, d₁, hfound, h⟩ := run_bind_ok.1 h
      cases found with
      | some p =>
          obtain ⟨hkept, hrest⟩ := ih h
          refine ⟨hkept, List.forall_mem_cons.2 ⟨?_, hrest⟩⟩
          exact .inr ⟨p, Work.gives_of_run hfound⟩
      | none =>
          obtain ⟨hkept, hrest⟩ := ih h
          have hlisted : r.type.isAmong
              (if r.type.isAmong missing then missing else missing ++ [r.type]) = true := by
            split
            next hin => exact hin
            next =>
              rw [isAmong_append, isAmong_cons, Value.same_refl (canName_of_find? hfound)]
              simp
          refine ⟨fun type hin => hkept type ?_, List.forall_mem_cons.2 ⟨?_, hrest⟩⟩
          · split
            · exact hin
            · rw [isAmong_append, hin, Bool.true_or]
          · exact .inl (hkept r.type hlisted)

end Registry

-- ============================================================= merging

namespace Backend

/-- A fault that comes out of a plan for some requests: it was met in looking
for their providers, or in listing their sources. -/
inductive Escapes (b : Backend σ) (requests : List (Request σ)) : Fault → Prop where
  | asking {r : Request σ} {fault : Fault} (mem : r ∈ requests)
      (fails : b.registry.Unaskable r.toRequirement fault) : Escapes b requests fault
  | listing {r : Request σ} {m : Metadata} (mem : r ∈ requests) (known : r.provenance = .known m)
      (counts : m.source.isTruthy = true) (unnamed : m.source.canName = false) :
      Escapes b requests m.source.cannotName

/-- The type of a group is that of its first request. -/
def typeOf (group : String × List (Request σ)) : Value :=
  (group.2.head?.map fun r => r.type).getD .null

/-- The groups of types that have providers, each with the outcome of merging
it. -/
def mergeOutcomes (b : Backend σ) (missing : List Value) (gs : List (String × List (Request σ))) :
    Work σ (List (List (Request σ) × Except Fault (Request σ))) :=
  (gs.filter fun group => !(typeOf group).isAmong missing).mapM fun group =>
    do return (group.2, ← (b.mergeGroup group).outcome)

end Backend

/-- The plan with the outcome of merging some requests. -/
def Plan.settle (p : Plan σ) (requests : List (Request σ)) : Except Fault (Request σ) → Plan σ
  | .error fault => p.recordError .merge fault.reason
  | .ok merged => p.record merged (Backend.distinctSources requests)

/-- The outcome of a merge leaves the missing types alone. -/
theorem Plan.missing_settle (p : Plan σ) (requests : List (Request σ))
    (r : Except Fault (Request σ)) : (p.settle requests r).missing = p.missing := by
  cases r with
  | error fault => rfl
  | ok merged => rfl

namespace Backend

variable {b : Backend σ} {d d' : Desk σ} {p p' : Plan σ} {requests : List (Request σ)}

/-- A group of a missing type is left out; any other is merged, and the
outcome is settled. -/
theorem planGroup_ok {group : String × List (Request σ)}
    (h : (b.planGroup p group).run d = (.ok p', d')) :
    if (typeOf group).isAmong p.missing then p' = p ∧ d' = d
    else ∃ r, (b.mergeGroup group).run d = (r, d') ∧ p' = p.settle group.2 r := by
  unfold planGroup at h
  unfold typeOf
  dsimp only at h
  split at h
  next hmissing =>
    cases h
    rw [if_pos hmissing]
    exact ⟨rfl, rfl⟩
  next hmissing =>
    rw [if_neg hmissing]
    obtain ⟨r, d₁, hmerge, h⟩ := run_bind_ok.1 h
    rw [Work.run_outcome] at hmerge
    injection hmerge with hr hd
    injection hr with hr
    cases r with
    | error fault =>
        cases h
        exact ⟨.error fault, Prod.ext hr hd, rfl⟩
    | ok merged =>
        obtain ⟨sources, d₂, hasked, hlist⟩ := run_bind_ok.1 h
        obtain ⟨distinct, d₃, htold, hend⟩ := run_bind_ok.1 hlist
        obtain ⟨hsources, rfl⟩ := Work.run_ofExcept_ok.1 hasked
        obtain ⟨hdistinct, rfl⟩ := Work.run_ofExcept_ok.1 htold
        cases hend
        refine ⟨.ok merged, Prod.ext hr hd, ?_⟩
        unfold Plan.settle
        rw [distinctSources_eq hsources hdistinct]

/-- All that can come out of a group is that its sources cannot be
listed. -/
theorem planGroup_error {group : String × List (Request σ)} {fault : Fault}
    (known : ∀ r ∈ group.2, ∃ m, r.provenance = .known m)
    (h : (b.planGroup p group).run d = (.error fault, d')) : b.Escapes group.2 fault := by
  obtain ⟨sources, hlisted, -⟩ : ∃ sources, sourcesOf group.2 = .ok sources ∧ _ :=
    sourcesOf_ok (P := fun _ => True) fun r hr => by
      obtain ⟨m, hm⟩ := known r hr
      exact ⟨m.source, by rw [hm]; rfl, trivial⟩
  unfold planGroup at h
  dsimp only at h
  split at h
  · cases h
  · rw [run_bind, Work.run_outcome] at h
    dsimp only at h
    split at h
    · cases h
    · rw [hlisted, run_bind, Work.run_ofExcept] at h
      dsimp only at h
      rcases run_bind_error.1 h with h | ⟨distinct, d₁, -, h⟩
      · rw [Work.run_ofExcept] at h
        injection h with h
        obtain ⟨s, hs, hunnamed, rfl⟩ := exists_of_addSources_error h
        obtain ⟨hs, hcounts⟩ := List.mem_filter.1 hs
        obtain ⟨r, hr, hsource⟩ := exists_of_mapM_ok hlisted s hs
        obtain ⟨m, hm⟩ := known r hr
        rw [hm] at hsource
        cases hsource
        exact .listing hr hm hcounts hunnamed
      · cases h

theorem Escapes.mono {requests' : List (Request σ)} {fault : Fault}
    (h : b.Escapes requests fault) (hsub : requests ⊆ requests') : b.Escapes requests' fault := by
  cases h with
  | asking mem fails => exact .asking (hsub mem) fails
  | listing mem known counts unnamed => exact .listing (hsub mem) known counts unnamed

/-- A plan that got through all groups settled the outcomes of merging, one
after the other. -/
theorem planGroups_ok {gs : List (String × List (Request σ))}
    (h : (gs.foldlM b.planGroup p).run d = (.ok p', d')) :
    ∃ outcomes, (b.mergeOutcomes p.missing gs).run d = (.ok outcomes, d')
      ∧ p' = outcomes.foldl (fun p o => p.settle o.1 o.2) p := by
  induction gs generalizing p d with
  | nil =>
      cases h
      exact ⟨[], rfl, rfl⟩
  | cons group gs ih =>
      rw [List.foldlM_cons] at h
      obtain ⟨p₁, d₁, hgroup, hrest⟩ := run_bind_ok.1 h
      have hone := planGroup_ok hgroup
      obtain ⟨outcomes, houtcomes, rfl⟩ := ih hrest
      unfold mergeOutcomes at houtcomes ⊢
      rw [List.filter_cons]
      split at hone
      next hmissing =>
        obtain ⟨rfl, rfl⟩ := hone
        rw [hmissing]
        exact ⟨outcomes, houtcomes, rfl⟩
      next hmissing =>
        obtain ⟨r, hmerge, rfl⟩ := hone
        rw [Plan.missing_settle] at houtcomes
        rw [Bool.eq_false_iff.2 hmissing]
        refine ⟨(group.2, r) :: outcomes, ?_, rfl⟩
        rw [Bool.not_false, if_pos rfl, List.mapM_cons]
        rw [run_bind, run_bind, Work.run_outcome, hmerge]
        dsimp only
        rw [run_pure]
        dsimp only
        rw [run_bind, houtcomes]
        rfl

/-- A fault out of planning the groups escapes from one of them. -/
theorem planGroups_error {gs : List (String × List (Request σ))} {fault : Fault}
    (known : ∀ group ∈ gs, ∀ r ∈ group.2, ∃ m, r.provenance = .known m)
    (h : (gs.foldlM b.planGroup p).run d = (.error fault, d')) :
    ∃ group ∈ gs, b.Escapes group.2 fault := by
  induction gs generalizing p d with
  | nil => cases h
  | cons group gs ih =>
      rw [List.foldlM_cons] at h
      rcases run_bind_error.1 h with hfails | ⟨p₁, d₁, -, hrest⟩
      · exact ⟨group, by simp, planGroup_error (known group (by simp)) hfails⟩
      · obtain ⟨other, hother, hfails⟩ := ih (fun g hg => known g (by simp [hg])) hrest
        exact ⟨other, by simp [hother], hfails⟩

end Backend

-- ========================================================= the record

namespace Plan

/-- What went wrong in some merges, in order. -/
def faultsOf (outcomes : List (List (Request σ) × Except Fault (Request σ))) : List String :=
  outcomes.filterMap fun o => match o.2 with
    | .error fault => some fault.reason
    | .ok _ => none

/-- What some merges gave, in order. -/
def mergedOf (outcomes : List (List (Request σ) × Except Fault (Request σ))) : List (Request σ) :=
  outcomes.filterMap fun o => o.2.toOption

/-- What a plan has on record of the phases after collecting, by their
outcomes. -/
structure Reports (p : Plan σ) (b : Backend σ) (requests : List (Request σ))
    (checks : Except Fault Verdict)
    (outcomes : List (List (Request σ) × Except Fault (Request σ))) : Prop where
  backendId : p.backendId = b.id
  /-- A request without a provider is known by its type. -/
  missing : ∀ r ∈ requests, r.type.isAmong p.missing = true
    ∨ ∃ provider, (b.registry.find? r.toRequirement).Gives (some provider)
  /-- All that went wrong, in order, and nothing else. -/
  errors : p.errors
    = (Backend.objections checks).map (fun what => s!"{Phase.validate.title} failed: {what}")
      ++ (faultsOf outcomes).map fun what => s!"{Phase.merge.title} failed: {what}"
  warnings : p.warnings = (checks.toOption.map Verdict.warnings).getD []
  requirements : p.requirements
    = Table.ofEntries ((mergedOf outcomes).map fun r => (r.resourceKey, r))

/-- What a plan tells about the phases, which run one after the other from a
desk on. If collecting fails there is nothing else to tell. -/
inductive Tells (b : Backend σ) (settings : Except Fault Settings) (d : Desk σ) :
    Plan σ → Prop where
  | uncollected {fault : Fault} {d₁ : Desk σ}
      (fails : (b.requested settings).run d = (.error fault, d₁)) :
      Tells b settings d (({ backendId := b.id } : Plan σ).recordError .collect fault.reason)
  | collected {requests : List (Request σ)} {coverage : Coverage}
      {checks : Except Fault Verdict}
      {outcomes : List (List (Request σ) × Except Fault (Request σ))} {d₁ d₂ d₃ d₄ : Desk σ}
      {p : Plan σ} (collects : (b.requested settings).run d = (.ok requests, d₁))
      (covers : (b.registry.coverage (requests.map Request.toRequirement)).run d₁
        = (.ok coverage, d₂))
      (checked : (b.runValidators requests).run d₂ = (checks, d₃))
      (merged : (b.mergeOutcomes coverage.missing (Backend.groups requests)).run d₃
        = (.ok outcomes, d₄))
      (missing : p.missing = coverage.missing) (reports : p.Reports b requests checks outcomes) :
      Tells b settings d p

/-- Settling the outcomes one by one appends their errors and puts their
requirements. -/
theorem foldl_settle (outcomes : List (List (Request σ) × Except Fault (Request σ)))
    (p : Plan σ) :
    outcomes.foldl (fun p o => p.settle o.1 o.2) p = { p with
      errors := p.errors ++ (faultsOf outcomes).map fun what =>
        s!"{Phase.merge.title} failed: {what}"
      requirements := (mergedOf outcomes).foldl (fun t r => Table.put r.resourceKey r t)
        p.requirements
      sources := (outcomes.foldl (fun p o => p.settle o.1 o.2) p).sources } := by
  induction outcomes generalizing p with
  | nil =>
      show p = _
      simp [faultsOf, mergedOf]
  | cons o outcomes ih =>
      obtain ⟨requests, r⟩ := o
      rw [List.foldl_cons, ih]
      cases r with
      | error fault => simp [faultsOf, mergedOf, settle, recordError, Except.toOption]
      | ok merged => simp [faultsOf, mergedOf, settle, record, Except.toOption]

end Plan

namespace Backend

variable {b : Backend σ} {d d' : Desk σ} {p : Plan σ} {requests : List (Request σ)}

/-- The warnings of a plan are those of the verdict, if there is one. -/
theorem warnings_checkedPlan (b : Backend σ) (missing : List Value)
    (checks : Except Fault Verdict) :
    (b.checkedPlan missing checks).warnings = (checks.toOption.map Verdict.warnings).getD [] := by
  cases checks with
  | error fault => rfl
  | ok verdict => rfl

/-- Where every type is missing or provided, planning settles the outcome of
each group. -/
theorem planMerges_ok {missing : List Value} {checks : Except Fault Verdict}
    (h : (b.planMerges requests (b.checkedPlan missing checks)).run d = (.ok p, d'))
    (covers : ∀ r ∈ requests, r.type.isAmong missing = true
      ∨ ∃ provider, (b.registry.find? r.toRequirement).Gives (some provider)) :
    ∃ outcomes d'', (b.mergeOutcomes missing (groups requests)).run d = (.ok outcomes, d'')
      ∧ p.missing = missing ∧ p.Reports b requests checks outcomes := by
  obtain ⟨p', d₁, hgroups, hreport⟩ := run_bind_ok.1 h
  obtain ⟨_, d₂, -, hend⟩ := run_bind_ok.1 hreport
  cases hend
  obtain ⟨outcomes, houtcomes, hfold⟩ := planGroups_ok hgroups
  rw [missing_checkedPlan] at houtcomes
  rw [Plan.foldl_settle] at hfold
  have hmissing : p.missing = missing := by
    rw [hfold]
    exact b.missing_checkedPlan missing checks
  refine ⟨outcomes, d₁, houtcomes, hmissing, ?_⟩
  exact {
    backendId := by
      rw [hfold]
      cases checks with
      | error fault => rfl
      | ok verdict => simp only [checkedPlan, foldl_recordError]
    missing := by
      rw [hmissing]
      exact covers
    errors := by rw [hfold, ← b.errors_checkedPlan missing checks]
    warnings := by rw [hfold, ← b.warnings_checkedPlan missing checks]
    requirements := by
      rw [hfold]
      unfold Table.ofEntries
      rw [List.foldl_map, ← b.requirements_checkedPlan missing checks] }

/-- A plan for requests that were collected tells of every phase. -/
theorem tells_of_planRequests {settings : Except Fault Settings} {d₁ : Desk σ}
    (collects : (b.requested settings).run d = (.ok requests, d₁))
    (h : (b.planRequests requests).run d₁ = (.ok p, d')) : Plan.Tells b settings d p := by
  obtain ⟨coverage, d₂, hcoverage, hchecks⟩ := run_bind_ok.1 h
  obtain ⟨checks, d₃, hasked, hmerges⟩ := run_bind_ok.1 hchecks
  rw [Work.run_outcome] at hasked
  obtain ⟨missing, d₂', hmissing, hend⟩ := run_bind_ok.1 hcoverage
  cases hend
  have hcovers : ∀ r ∈ requests, r.type.isAmong missing = true
      ∨ ∃ provider, (b.registry.find? r.toRequirement).Gives (some provider) := by
    intro r hr
    exact (Registry.missingTypes_ok hmissing).2 r.toRequirement (List.mem_map_of_mem hr)
  obtain ⟨outcomes, d₄, houtcomes, hp, reports⟩ := planMerges_ok hmerges hcovers
  injection hasked with hchecked hd
  injection hchecked with hchecked
  exact .collected collects hcoverage (Prod.ext hchecked hd) houtcomes hp reports

/-- Whatever comes out of a plan was met in one of the two steps that are not
asked for their outcome. -/
theorem escapes_of_planRequests {fault : Fault}
    (known : ∀ r ∈ requests, ∃ m, r.provenance = .known m)
    (h : (b.planRequests requests).run d = (.error fault, d')) : b.Escapes requests fault := by
  rcases run_bind_error.1 h with hcoverage | ⟨coverage, d₁, -, h⟩
  · rcases run_bind_error.1 hcoverage with hmissing | ⟨missing, d₂, -, hend⟩
    · obtain ⟨r, hr, hfails⟩ := Registry.missingTypes_error hmissing
      obtain ⟨request, hrequest, rfl⟩ := List.mem_map.1 hr
      exact .asking hrequest hfails
    · cases hend
  · rw [run_bind, Work.run_outcome] at h
    rcases run_bind_error.1 h with hgroups | ⟨plan, d₂, -, hreport⟩
    · have hmembers : ∀ group ∈ groups requests, group.2 ⊆ requests := by
        intro group hgroup r hr
        rw [(Requirement.of_mem_groupByResourceKey _ hgroup).1] at hr
        exact (List.mem_filter.1 hr).1
      obtain ⟨group, hgroup, hfails⟩ :=
        planGroups_error (fun g hg r hr => known r (hmembers g hg hr)) hgroups
      exact hfails.mono (hmembers group hgroup)
    · cases hreport

/-- What was collected has its source on record. -/
theorem known_of_requested {settings : Except Fault Settings}
    (gives : (b.requested settings).Gives requests) :
    ∀ r ∈ requests, ∃ m, r.provenance = .known m := by
  refine forall_of_requested (fun _ _ _ _ _ q _ r hsource => ?_) gives
  obtain ⟨m, hm, -⟩ := Provenance.of_withSource (Request.of_withSource hsource).2
  exact ⟨m, hm⟩

end Backend

/-- A plan records what goes wrong. Of any backend in any state, and whatever
its collaborators do: planning leaves the backend as it was and makes no
resource; the plan that it answers with tells of every phase how it went;
and if it fails, then because looking for the provider of something that was
collected failed, or because a source cannot be told from others. -/
theorem Session.plan_records_problems (s : Session σ) (settings : Except Fault Settings) :
    (s.step (.plan settings)).2.backend = s.backend
      ∧ (∀ c ∈ s.backend.planCalls settings s.desk, ¬ c.Provides)
      ∧ match (s.step (.plan settings)).1 with
        | .ok answer => ∃ p, answer = .plan p ∧ Plan.Tells s.backend settings s.desk p
        | .error fault => ∃ requests d,
            (s.backend.requested settings).run s.desk = (.ok requests, d)
              ∧ s.backend.Escapes requests fault := by
  refine ⟨rfl, s.backend.harmless_planCalls settings s.desk, ?_⟩
  have hstep : (s.step (.plan settings)).1
      = ((s.backend.plan settings).run s.desk).1.map .plan := rfl
  rw [hstep, Backend.plan_eq, run_bind, Work.run_outcome]
  dsimp only
  rcases hcollected : (s.backend.requested settings).run s.desk with ⟨fault | requests, d₁⟩
  · exact ⟨_, rfl, .uncollected hcollected⟩
  · dsimp only
    rcases hplan : (s.backend.planRequests requests).run d₁ with ⟨fault | p, d₂⟩
    · have hknown := Backend.known_of_requested (Work.gives_of_run hcollected)
      exact ⟨requests, d₁, rfl, Backend.escapes_of_planRequests hknown hplan⟩
    · exact ⟨p, rfl, Backend.tells_of_planRequests hcollected hplan⟩

/-- A component that asks for what a mapping describes. -/
def Backend.mappingUser (id : String) (described : Fields) : Definition Unit where
  id := .str id
  type := some (.str "service")
  factory := fun id _ resources => pure (.component {
    id := id
    type := .str "service"
    managed := true
    scope := .str "root"
    resources := resources
    declare := pure [.plain (.object described)]
    start := fun _ => pure ()
    ownCheck := fun _ => pure none })

/-- A list of types makes a requirement, but no provider can be looked up for
it: the plan fails. -/
theorem Session.plan_fails_for_list_of_types :
    let described : Fields :=
      [("resource_type", .list [.str "queue"]), ("requirement_key", .str "jobs")]
    let made : Backend Unit := ⟨.str "app", {}, {}, [], .collecting, [], []⟩
    let s := Session.run ⟨made, ⟨(), []⟩⟩
      [.add (.definition (Backend.mappingUser "worker" described))]
    (∃ journal, Backend.make (.str "app") {} = (.ok made, journal))
      ∧ Requirement.ofValue (.object described)
        = .ok ⟨.list [.str "queue"], .str "jobs", [], .null, .absent⟩
      ∧ (s.step (.plan (.ok {}))).1 = .error (.badType "unhashable type: 'list'") :=
  ⟨⟨_, rfl⟩, rfl, rfl⟩

end Depot
