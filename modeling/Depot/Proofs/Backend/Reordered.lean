/-
The order of components. Components that are pure, that leave scopes alone
and whose requests have no validators can be registered in any order, as
long as the requests for one resource keep theirs: if a backend with
standard providers can be initialised, so it can with its components in
another such order, and under each key there is the same handle
(`order_of_components_is_immaterial`).

The two runs are compared phase by phase. What the first collects, merges
and provisions is what the second does in another order; and each phase
asks of it only what does not depend on the order. The second run is never
looked at: for each phase it is said what the phase leads to from a scope
(`SiteWork.Leads`), and the phases are put together in the end.
-/
import Depot.Proofs.Backend.Collecting
import Depot.Proofs.Backend.DryRun
import Depot.Proofs.Backend.Provisioning
import Depot.Proofs.Backend.Quotas

namespace Depot

open Work (Steady Gives)

variable {σ α : Type}

-- =========================================================== promises

namespace Definition

/-- The component made for real and initialised with the resources. -/
def started (d : Definition σ) (resources : Resources) : SiteWork σ (Component σ) := do
  (← d.create (.resources resources)).activate (.resources resources)

/-- A component that is pure and does not touch the scopes it is given. What
it requires is the same whenever it is asked under a scope, and whether it
can be initialised depends on nothing but the resources and the scope: not
on what was remembered or written before, and not on the order in which
resources or children of the scope came about. -/
structure IsPure (d : Definition σ) : Prop where
  declares : ∀ scope, (Work.inScope scope d.declared).Steady
  keepsScope : ∀ resources s, ((d.started resources).run s).2.scope = s.scope
  starts : ∀ (resources resources' : Resources) (s s' : Site σ),
    (∀ key, resources.lookup key = resources'.lookup key) → s.scope.Alike s'.scope →
      ∀ c t, (d.started resources).run s = (.ok c, t) →
        ∃ c' t', (d.started resources').run s' = (.ok c', t')

end Definition

namespace Registry

variable {reg : Registry σ}

-- ========================================================== validating

/-- A type that is missing stays missing. -/
theorem missingTypes_ne_nil {missing found : List Value} {rs : List Requirement}
    (gives : (reg.missingTypes missing rs).Gives found) (h : missing ≠ []) : found ≠ [] := by
  induction rs generalizing missing with
  | nil =>
      obtain ⟨d, hd⟩ := gives
      cases hd
      exact h
  | cons r rs ih =>
      obtain ⟨provider, -, gives⟩ := Work.gives_bind gives
      cases provider with
      | some p => exact ih gives h
      | none =>
          refine ih gives ?_
          split
          · exact h
          · simp

/-- Nothing is missing exactly if each requirement finds a provider. -/
theorem answer_missingTypes_eq_nil_iff (providers : ∀ p ∈ reg.all, p.Repeatable)
    {rs : List Requirement} {d : Desk σ} :
    (reg.missingTypes [] rs).answer d = .ok [] ↔
      ∀ r ∈ rs, ∃ p, (reg.find? r).Gives (some p) := by
  induction rs generalizing d with
  | nil => exact iff_of_true rfl (by simp)
  | cons r rs ih =>
      rw [List.forall_mem_cons]
      constructor
      · intro h
        obtain ⟨found, d₁, hfind, hrest⟩ := run_bind_ok.1 (Prod.ext h rfl)
        cases found with
        | none =>
            have hadded := List.cons_ne_nil r.type []
            exact absurd rfl (missingTypes_ne_nil (Work.gives_of_run hrest) hadded)
        | some p => exact ⟨⟨p, Work.gives_of_run hfind⟩, ih.1 (congrArg Prod.fst hrest)⟩
      · rintro ⟨⟨p, d₀, hfind⟩, hrest⟩
        obtain ⟨d₁, hrun⟩ := (steady_find? providers r).run hfind d
        show ((reg.missingTypes [] (r :: rs)).run d).1 = .ok []
        unfold missingTypes
        rw [run_bind_of_ok hrun]
        exact ih.2 hrest

/-- The coverage is complete exactly if each requirement finds a
provider. -/
theorem answer_coverage_complete_iff (providers : ∀ p ∈ reg.all, p.Repeatable)
    {rs : List Requirement} {d : Desk σ} :
    (∃ coverage, (reg.coverage rs).answer d = .ok coverage ∧ coverage.missing = []) ↔
      ∀ r ∈ rs, ∃ p, (reg.find? r).Gives (some p) := by
  rw [← answer_missingTypes_eq_nil_iff (d := d) providers]
  constructor
  · rintro ⟨coverage, hcoverage, hnone⟩
    obtain ⟨missing, d₁, hmissing, h⟩ := run_bind_ok.1 (Prod.ext hcoverage rfl)
    cases h
    obtain rfl : missing = [] := hnone
    exact congrArg Prod.fst hmissing
  · intro h
    obtain ⟨d₁, hrun⟩ := Work.run_of_answer h
    refine ⟨⟨true, []⟩, ?_, rfl⟩
    show ((reg.coverage rs).run d).1 = _
    unfold coverage
    rw [run_bind_of_ok hrun]
    rfl

end Registry

namespace Backend

variable {b : Backend σ}

/-- Requests without validators pass the run of the validators. -/
theorem answer_runValidators_of_unchecked {requests : List (Request σ)}
    (unchecked : ∀ r ∈ requests, r.validators = []) (d : Desk σ) :
    (b.runValidators requests).answer d = .ok (.ofTexts [] []) := by
  have hasks : ∀ surroundings, List.Forall₂ (fun r found => ∀ d : Desk σ,
      ∃ d', (askValidators surroundings r).run d = (.ok found, d')) requests
        (requests.map fun _ => ([], [])) := by
    intro surroundings
    rw [List.forall₂_map_right_iff, List.forall₂_same]
    intro r hr d
    unfold askValidators
    rw [unchecked r hr]
    exact ⟨d, rfl⟩
  obtain ⟨d', hrun⟩ := run_mapM_of_forall₂ (hasks ⟨requests.map Request.toRequirement,
    b.config.toProfile⟩) d
  have hnone : ∀ g : List String × List String → List String, g ([], []) = [] →
      (requests.map fun _ => (([], []) : List String × List String)).flatMap g = [] := by
    intro g hg
    rw [List.flatMap_map, List.flatMap_eq_nil_iff]
    exact fun _ _ => hg
  show ((b.runValidators requests).run d).1 = _
  unfold runValidators
  dsimp only
  rw [run_bind_of_ok hrun, run_pure, hnone _ rfl, hnone _ rfl]

/-- Requests without validators pass if each finds a provider. -/
theorem answer_checkRequests_of_unchecked_iff (providers : ∀ p ∈ b.registry.all, p.Repeatable)
    {requests : List (Request σ)} (unchecked : ∀ r ∈ requests, r.validators = []) {d : Desk σ} :
    (b.checkRequests requests).answer d = .ok () ↔
      ∀ r ∈ requests, ∃ p, (b.registry.find? r.toRequirement).Gives (some p) := by
  have hvalidates : ∀ r ∈ requests, ∀ v ∈ r.validators, ∀ q surroundings,
      (v.validate q surroundings).Steady := by
    intro r hr v hv
    rw [unchecked r hr] at hv
    cases hv
  rw [answer_checkRequests_ok_iff hvalidates, Registry.answer_coverage_complete_iff providers,
    List.forall_mem_map]
  exact and_iff_left ⟨_, answer_runValidators_of_unchecked unchecked d, rfl⟩

-- ============================================================= merging

/-- Requests in an order that those for one resource do not notice form the
same groups in another order. -/
theorem groups_perm {requests requests' : List (Request σ)} (reordered : requests.Perm requests')
    (keeps : ∀ key, Requirement.sharing Request.toRequirement key requests
      = Requirement.sharing Request.toRequirement key requests') :
    (groups requests).Perm (groups requests') := by
  unfold groups
  rw [Requirement.groupByResourceKey_eq, Requirement.groupByResourceKey_eq]
  simp only [keeps]
  refine List.Perm.map _ ?_
  rw [List.perm_ext_iff_of_nodup (nodup_eraseDups _) (nodup_eraseDups _)]
  intro key
  rw [List.mem_eraseDups, List.mem_eraseDups]
  exact (reordered.map _).mem_iff

/-- What groups are merged to are requests for different resources. -/
theorem nodup_keys_of_mergeGroups (providers : ∀ p ∈ b.registry.all, p.Repeatable)
    {requests merged : List (Request σ)} {d d' : Desk σ}
    (merges : (b.mergeGroups requests).run d = (.ok merged, d')) :
    (merged.map fun r => r.resourceKey).Nodup := by
  have hkeys : ∀ gs merged, (∀ g ∈ gs, g ∈ groups requests) →
      List.Forall₂ (fun g r => ∃ t t', (b.mergeGroup g).run t = (.ok r, t')) gs merged →
      merged.map (fun r => r.resourceKey) = gs.map Prod.fst := by
    intro gs merged hgs h
    induction h with
    | nil => rfl
    | cons head tail ih =>
        obtain ⟨t, t', hrun⟩ := head
        rw [List.map_cons, List.map_cons, ih fun g hg => hgs g (by simp [hg]),
          resourceKey_of_gives_mergeGroup providers (hgs _ (by simp)) (Work.gives_of_run hrun)]
  rw [hkeys (groups requests) merged (fun _ hg => hg) (run_mapM_ok merges), groups,
    Requirement.keys_groupByResourceKey]
  exact nodup_eraseDups _

/-- Groups in another order are merged to the same in another order. -/
theorem exists_mergeGroups_of_perm (providers : ∀ p ∈ b.registry.all, p.Repeatable)
    {requests requests' merged : List (Request σ)}
    (reordered : (groups requests).Perm (groups requests')) {d d' : Desk σ}
    (merges : (b.mergeGroups requests).run d = (.ok merged, d')) :
    ∃ merged', merged.Perm merged'
      ∧ ∀ t, ∃ t', (b.mergeGroups requests').run t = (.ok merged', t') := by
  obtain ⟨merged', hmerges, hperm⟩ :=
    List.perm_comp_forall₂ reordered.symm (run_mapM_ok merges)
  refine ⟨merged', hperm.symm, run_mapM_of_forall₂ (hmerges.imp ?_)⟩
  rintro group r ⟨t, t', hrun⟩ t₁
  exact (steady_mergeGroup providers group).run (congrArg Prod.fst hrun) t₁

-- ============================================================== phases

theorem leads_inPhase {w : SiteWork σ α} {scope after : Scope} {a : α}
    (h : w.Leads scope a after) (b : Backend σ) (phase : Phase) :
    (b.inPhase phase w).Leads scope a after := by
  intro s hs
  obtain ⟨s', hrun, hscope⟩ := h (b.entering phase s) hs
  exact ⟨s', run_inPhase_ok.2 hrun, hscope⟩

/-- The backend with other components. -/
def withDefinitions (b : Backend σ) (definitions : Keyed (Definition σ)) : Backend σ :=
  { b with definitions := definitions }

/-- The definitions are those of the backend in another order, which the
requests for one resource do not notice. -/
structure Reorders (b : Backend σ) (settings : Except Fault Settings)
    (definitions : Keyed (Definition σ)) : Prop where
  same : b.definitions.Perm definitions
  keeps : ∀ requests requests', (b.requested settings).Gives requests →
    ((b.withDefinitions definitions).requested settings).Gives requests' →
      ∀ key, Requirement.sharing Request.toRequirement key requests
        = Requirement.sharing Request.toRequirement key requests'

/-- What is collected under the mark of the settings is what is requested. -/
theorem gives_requested {settings : Except Fault Settings} {mark : BackendMark}
    (hmark : b.mark settings = .ok mark) {requests : List (Request σ)} {d d' : Desk σ}
    (collects : (b.collect mark).run d = (.ok requests, d')) :
    (b.requested settings).Gives requests :=
  Work.gives_of_run (run_bind_ok.2 ⟨mark, d, Work.run_ofExcept_ok.2 ⟨hmark, rfl⟩, collects⟩)

section Phases

variable {settings : Except Fault Settings} {definitions : Keyed (Definition σ)}
  (allPure : ∀ e ∈ b.definitions, e.2.IsPure)
  (standard : ∀ p ∈ b.registry.all, p.IsStandard)
  (unchecked : ∀ requests, (b.requested settings).Gives requests →
    ∀ r ∈ requests, r.validators = [])
  (reorders : b.Reorders settings definitions) {s s' : Site σ}

include allPure reorders in
/-- The reordered backend collects the same requests in another order. -/
theorem exists_collected_of_reorders {requests : List (Request σ)}
    (collects : (b.collected settings).run s = (.ok requests, s')) :
    (b.requested settings).Gives requests ∧ ∃ requests', requests.Perm requests'
      ∧ (groups requests).Perm (groups requests')
      ∧ ((b.withDefinitions definitions).collected settings).Leads s.scope requests' s'.scope := by
  obtain ⟨mark, s₁, hread, hmarked⟩ := run_bind_ok.1 (run_inPhase_ok.1 collects)
  obtain ⟨hmark, rfl⟩ := SiteWork.run_ofExcept_ok.1 hread
  obtain ⟨_, s₂, hmarks, hcollect⟩ := run_bind_ok.1 hmarked
  cases hmarks
  obtain ⟨d, hrun, rfl⟩ := SiteWork.run_ofWork_ok.1 hcollect
  obtain ⟨requests', hperm, hcollects⟩ :=
    exists_collect_of_perm reorders.same (fun e he => (allPure e he).declares) hrun
  have hgives := gives_requested hmark hrun
  have hgives' : ((b.withDefinitions definitions).requested settings).Gives requests' := by
    obtain ⟨d', hrun'⟩ := hcollects d
    have hmark' : (b.withDefinitions definitions).mark settings = .ok mark := hmark
    exact gives_requested hmark' hrun'
  have hkeeps := reorders.keeps requests requests' hgives hgives'
  refine ⟨hgives, requests', hperm, groups_perm hperm hkeeps, leads_inPhase ?_ _ _⟩
  exact .bind (.ofExcept hmark _) (.bind (.mark mark _) (.ofWork hcollects _))

include allPure standard unchecked reorders in
/-- The reordered backend merges the requests to the same requirements in
another order. -/
theorem exists_prepared_of_reorders {requests merged : List (Request σ)}
    (prepares : (b.prepared settings).run s = (.ok (requests, merged), s')) :
    ∃ requests' merged', (groups requests).Perm (groups requests') ∧ merged.Perm merged'
      ∧ (merged.map fun r => r.resourceKey).Nodup
      ∧ ((b.withDefinitions definitions).prepared settings).Leads s.scope (requests', merged')
          s'.scope := by
  have providers : ∀ p ∈ b.registry.all, p.Repeatable := fun p hp => (standard p hp).repeatable
  obtain ⟨requests, s₁, hcollected, prepares⟩ := run_bind_ok.1 prepares
  obtain ⟨_, s₂, hchecked, prepares⟩ := run_bind_ok.1 prepares
  obtain ⟨merged, s₃, hmerged, prepares⟩ := run_bind_ok.1 prepares
  cases prepares
  obtain ⟨d, hcheck, rfl⟩ := SiteWork.run_ofWork_ok.1 (run_inPhase_ok.1 hchecked)
  obtain ⟨d', hmerge, rfl⟩ := SiteWork.run_ofWork_ok.1 (run_inPhase_ok.1 hmerged)
  obtain ⟨hgives, requests', hperm, hgroups, hleads⟩ :=
    exists_collected_of_reorders allPure reorders hcollected
  have hunchecked := unchecked requests hgives
  have hunchecked' : ∀ r ∈ requests', r.validators = [] :=
    fun r hr => hunchecked r (hperm.symm.subset hr)
  have hfound := (answer_checkRequests_of_unchecked_iff providers hunchecked).1
    (congrArg Prod.fst hcheck)
  have hchecks : ∀ d, ∃ d', (b.checkRequests requests').run d = (.ok (), d') := by
    intro d
    refine Work.run_of_answer ((answer_checkRequests_of_unchecked_iff providers hunchecked').2 ?_)
    exact fun r hr => hfound r (hperm.symm.subset hr)
  obtain ⟨merged', hmergedPerm, hmerges⟩ := exists_mergeGroups_of_perm providers hgroups hmerge
  refine ⟨requests', merged', hgroups, hmergedPerm, nodup_keys_of_mergeGroups providers hmerge, ?_⟩
  refine .bind hleads (.bind (leads_inPhase (.ofWork hchecks _) _ _) ?_)
  exact .bind (leads_inPhase (.ofWork hmerges _) _ _) (.pure _ _)

include allPure standard unchecked reorders in
/-- The reordered backend makes the same resources in another order. -/
theorem exists_provisioned_of_reorders {resources : Resources}
    (provisions : (b.provisioned settings).run s = (.ok resources, s')) :
    ∃ entries entries', resources = asResources entries ∧ entries.Perm entries'
      ∧ (Table.keys resources).Nodup ∧ ∃ after, s'.scope.Alike after
        ∧ ((b.withDefinitions definitions).provisioned settings).Leads s.scope
            (asResources entries') after := by
  obtain ⟨⟨requests, merged⟩, s₁, hprepared, provisions⟩ := run_bind_ok.1 provisions
  obtain ⟨requests', merged', hgroups, hmerged, hdistinct, hleads⟩ :=
    exists_prepared_of_reorders allPure standard unchecked reorders hprepared
  obtain ⟨_, s₂, hchecked, provisions⟩ := run_bind_ok.1 (run_inPhase_ok.1 provisions)
  obtain ⟨hlimits, rfl⟩ := SiteWork.run_ofExcept_ok.1 hchecked
  obtain ⟨context, s₃, hread, provisions⟩ := run_bind_ok.1 provisions
  obtain ⟨hcontext, rfl⟩ := SiteWork.run_ofExcept_ok.1 hread
  have hdifferent : ((merged.map Request.toRequirement).map Requirement.resourceKey).Nodup := by
    rw [List.map_map]
    exact hdistinct
  obtain ⟨entries, hentries, hkeys, hscope, entries', hperm, hprovides⟩ :=
    exists_provisionEach_of_perm standard (hmerged.map _) hdifferent provisions
  obtain ⟨hnamed, hwithin⟩ := checkLimits_ok_iff.1 hlimits
  have hlimits' : b.checkLimits merged' (groups requests') = .ok () :=
    checkLimits_ok_iff.2 ⟨fun r hr => hnamed r (hmerged.symm.subset hr),
      hwithin.perm hgroups hmerged⟩
  refine ⟨entries, entries', hentries, hperm, hkeys, _, hscope ▸ Scope.grown_alike _ (hperm.map _),
    .bind hleads (leads_inPhase ?_ _ _)⟩
  exact .bind (.ofExcept hlimits' _) (.bind (.ofExcept hcontext _) hprovides)

end Phases

-- ========================================================== components

/-- Starting one entry starts its definition and keeps the scope that is
left. -/
theorem run_startOne_started {resources : Resources} {entry : Value × Definition σ} {s s' : Site σ}
    {made : Value × Component σ} (starts : (b.startOne resources entry).run s = (.ok made, s')) :
    ∃ c t, (entry.2.started resources).run s = (.ok c, t) ∧ s'.scope = t.scope := by
  obtain ⟨c, s₁, hmade, starts⟩ := run_bind_ok.1 starts
  obtain ⟨_, s₂, hreport, starts⟩ := run_bind_ok.1 starts
  cases hreport
  cases starts
  exact ⟨c, s₁, SiteWork.run_rephrase_ok.1 hmade, rfl⟩

theorem run_startOne_of_started (b : Backend σ) {resources : Resources}
    {entry : Value × Definition σ} {s t : Site σ} {c : Component σ}
    (started : (entry.2.started resources).run s = (.ok c, t)) :
    ∃ made s', (b.startOne resources entry).run s = (.ok made, s') ∧ s'.scope = t.scope := by
  refine ⟨_, _, run_bind_ok.2 ⟨c, t, SiteWork.run_rephrase_ok.2 started, rfl⟩, ?_⟩
  rfl

/-- Components that start leave the scope alone if they are pure, so each
starts where the first did. -/
theorem started_of_startEach {resources : Resources} {entries : Keyed (Definition σ)}
    (allPure : ∀ e ∈ entries, e.2.IsPure) {s s' : Site σ} {components : Keyed (Component σ)}
    (starts : (entries.mapM (b.startOne resources)).run s = (.ok components, s')) :
    ∀ e ∈ entries, ∃ t c t', t.scope = s.scope ∧ (e.2.started resources).run t = (.ok c, t') := by
  induction entries generalizing s s' components with
  | nil => simp
  | cons entry entries ih =>
      rw [List.mapM_cons] at starts
      obtain ⟨made, s₁, hone, starts⟩ := run_bind_ok.1 starts
      obtain ⟨others, s₂, hothers, -⟩ := run_bind_ok.1 starts
      obtain ⟨c, t, hstarted, hscope⟩ := run_startOne_started hone
      have hkeeps := (allPure entry (by simp)).keepsScope resources s
      rw [hstarted] at hkeeps
      intro e he
      rcases List.mem_cons.1 he with rfl | he
      · exact ⟨s, c, t, rfl, hstarted⟩
      · obtain ⟨t₁, c₁, t₂, hsame, hrun⟩ := ih (fun e he => allPure e (by simp [he])) hothers e he
        exact ⟨t₁, c₁, t₂, hsame.trans (hscope.trans hkeeps), hrun⟩

/-- Pure components start if each of them starts at sites of the scope. -/
theorem exists_startEach {resources : Resources} {scope : Scope} {entries : Keyed (Definition σ)}
    (allPure : ∀ e ∈ entries, e.2.IsPure)
    (starts : ∀ e ∈ entries, ∀ t : Site σ, t.scope = scope →
      ∃ c t', (e.2.started resources).run t = (.ok c, t'))
    {s : Site σ} (hs : s.scope = scope) :
    ∃ components s', (entries.mapM (b.startOne resources)).run s = (.ok components, s') := by
  induction entries generalizing s with
  | nil => exact ⟨[], s, rfl⟩
  | cons entry entries ih =>
      obtain ⟨c, t, hstarted⟩ := starts entry (by simp) s hs
      have hkeeps := (allPure entry (by simp)).keepsScope resources s
      rw [hstarted] at hkeeps
      obtain ⟨made, s₁, hone, hscope⟩ := b.run_startOne_of_started hstarted
      obtain ⟨others, s₂, hothers⟩ := ih (fun e he => allPure e (by simp [he]))
        (fun e he => starts e (by simp [he])) (hscope.trans (hkeeps.trans hs))
      refine ⟨made :: others, s₂, ?_⟩
      rw [List.mapM_cons, run_bind_of_ok hone, run_bind_of_ok hothers]
      rfl

-- ========================================================= main result

/-- The order of components is immaterial. Take a backend all of whose
providers are standard, whose components are pure and leave scopes alone, and
whose requests have no validators. If it is initialised under a scope, then
under an equal scope, whatever was remembered or written elsewhere, it can
also be initialised with its components in any other order that the requests
for one resource do not notice; all resources are handles, and under each key
there is the same one. -/
theorem order_of_components_is_immaterial {b : Backend σ}
    (standard : ∀ p ∈ b.registry.all, p.IsStandard) (allPure : ∀ e ∈ b.definitions, e.2.IsPure)
    {settings : Except Fault Settings} (unchecked : ∀ requests,
      (b.requested settings).Gives requests → ∀ r ∈ requests, r.validators = [])
    {definitions : Keyed (Definition σ)} (reorders : b.Reorders settings definitions)
    {s s' : Site σ} {summary : Summary} {after : Backend σ}
    (starts : (b.start settings).run s = ((.ok summary, after), s')) (d : Desk σ) :
    ∃ summary' after' s'',
      ((b.withDefinitions definitions).start settings).run ⟨d, s.scope⟩
          = ((.ok summary', after'), s'')
        ∧ (∀ e ∈ after.resources, ∃ h, e.2 = .handle h)
        ∧ ∀ key, after'.resources.lookup key = after.resources.lookup key := by
  have collecting := collecting_of_start_ok starts
  obtain ⟨p, s₁, hphases, -, rfl, rfl⟩ := (start_ok_iff collecting).1 starts
  rw [runPhases_eq] at hphases
  obtain ⟨resources, s₂, hprovisioned, hphases⟩ := run_bind_ok.1 hphases
  obtain ⟨components, s₃, hstarted, hphases⟩ := run_bind_ok.1 hphases
  cases hphases
  obtain ⟨entries, entries', rfl, hperm, hdistinct, scope, halike, hleads⟩ :=
    exists_provisioned_of_reorders allPure standard unchecked reorders hprovisioned
  have hsame := lookup_asResources_perm hdistinct hperm
  have hstarts : ∀ e ∈ definitions, ∀ t : Site σ, t.scope = scope →
      ∃ c t', (e.2.started (asResources entries')).run t = (.ok c, t') := by
    intro e he t ht
    have hmem := reorders.same.symm.subset he
    obtain ⟨t₀, c, t', hwhere, hrun⟩ :=
      started_of_startEach allPure (run_inPhase_ok.1 hstarted) e hmem
    have hscopes : t₀.scope.Alike t.scope := by
      rw [hwhere, ht]
      exact halike
    exact (allPure e hmem).starts _ _ t₀ t hsame hscopes c t' hrun
  -- the second run, phase by phase
  obtain ⟨t₁, hprovides, hscope⟩ :=
    hleads ((b.withDefinitions definitions).begun ⟨d, s.scope⟩) rfl
  have hpure : ∀ e ∈ definitions, e.2.IsPure :=
    fun e he => allPure e (reorders.same.symm.subset he)
  have hentered : ((b.withDefinitions definitions).entering .initializeComponents t₁).scope
      = scope := hscope
  obtain ⟨components', t₂, hcomponents⟩ :=
    exists_startEach (b := b.withDefinitions definitions) hpure hstarts hentered
  have hrun : ((b.withDefinitions definitions).runPhases settings).run
      ((b.withDefinitions definitions).begun ⟨d, s.scope⟩)
        = (.ok ⟨asResources entries', components'⟩, t₂) := by
    rw [runPhases_eq, run_bind_of_ok hprovides]
    exact run_bind_ok.2 ⟨components', t₂, run_inPhase_ok.2 hcomponents, rfl⟩
  have collecting' : (b.withDefinitions definitions).state = .collecting := collecting
  have hstart := (start_ok_iff collecting').2 ⟨_, t₂, hrun, rfl, rfl, rfl⟩
  refine ⟨_, _, _, hstart, ?_, ?_⟩
  · exact List.forall_mem_map.2 fun entry _ => ⟨entry.2, rfl⟩
  · exact fun key => (hsame key).symm

/-- Accounts of plain configurations. -/
def plainAccounts : Generic.Setup Unit where
  id := .str "accounts"
  types := [.str "account"]

/-- A backend with components that ask for an account each. -/
def withUsers (users : List (String × String)) : Backend Unit where
  id := .str "app"
  config := {}
  registry := ⟨[(.str "accounts", plainAccounts.kind.provider)],
    [(.str "account", [.str "accounts"])]⟩
  definitions := users.map fun user => (.str user.1, accountUser user.1 [user.2])

/-- What such a component asks for. -/
def userRequest (user : String × String) : Request Unit :=
  ⟨⟨.str "account", .str user.2, [], .null, .known ⟨.str user.1, .str "1.0", .null⟩⟩, []⟩

theorem pure_accountUser (id : String) (keys : List String) : (accountUser id keys).IsPure where
  declares _ _ _ := rfl
  keepsScope _ _ := rfl
  starts _ _ _ _ _ _ _ _ _ := ⟨_, _, rfl⟩

/-- What users require is one request each, in their order. -/
theorem flatten_of_requires {mark : BackendMark} {arena : Scope} {users : List (String × String)}
    {parts : List (List (Request Unit))}
    (requires : List.Forall₂ (Requires mark arena) (withUsers users).definitions parts) :
    parts.flatten = users.map userRequest := by
  induction users generalizing parts with
  | nil =>
      cases requires
      rfl
  | cons user users ih =>
      cases requires with
      | cons head tail =>
          obtain ⟨declared, ⟨d, hdeclared⟩, hsourced⟩ := head
          cases hdeclared
          cases hsourced
          rw [List.flatten_cons, ih tail]
          rfl

/-- A backend with users requests one account for each, in their order. -/
theorem requested_withUsers {users : List (String × String)} {settings : Except Fault Settings}
    {requests : List (Request Unit)}
    (gives : ((withUsers users).requested settings).Gives requests) :
    requests = users.map userRequest := by
  obtain ⟨mark, -, d, hcollect⟩ := Work.gives_bind gives
  obtain ⟨arena, d₁, -, hcollected, -⟩ := run_collect_ok (Prod.ext hcollect rfl)
  obtain ⟨-, parts, requires, rfl⟩ := run_collectFrom_ok hcollected
  exact flatten_of_requires requires

/-- Two components share an account, and one has its own. Registered first,
it gets the same account, and so do the others. -/
theorem swapped_users_get_same_accounts :
    let b := withUsers [("api", "main"), ("worker", "jobs"), ("audit", "main")]
    let swapped := withUsers [("worker", "jobs"), ("api", "main"), ("audit", "main")]
    let site : Site Unit := ⟨⟨(), []⟩, .node (.str "root") (.str "root") [] []⟩
    ∃ summary after s' summary' after' s'',
      (b.start (.ok {})).run site = ((.ok summary, after), s')
        ∧ (swapped.start (.ok {})).run site = ((.ok summary', after'), s'')
        ∧ Table.keys after.resources = ["account:main", "account:jobs"]
        ∧ Table.keys after'.resources = ["account:jobs", "account:main"]
        ∧ ∀ key, after'.resources.lookup key = after.resources.lookup key := by
  intro b swapped site
  have standard : ∀ p ∈ b.registry.all, p.IsStandard := by
    intro p hp
    rw [List.mem_singleton.1 hp]
    exact .generic plainAccounts rfl
  have allPure : ∀ e ∈ b.definitions, e.2.IsPure :=
    List.forall_mem_map.2 fun user _ => pure_accountUser user.1 [user.2]
  have unchecked : ∀ requests, (b.requested (.ok {})).Gives requests →
      ∀ r ∈ requests, r.validators = [] := by
    intro requests gives
    rw [requested_withUsers gives]
    exact List.forall_mem_map.2 fun _ _ => rfl
  have reorders : b.Reorders (.ok {}) swapped.definitions := by
    refine ⟨.swap _ _ _, fun requests requests' gives gives' key => ?_⟩
    have hswapped : (swapped.requested (.ok {})).Gives requests' := gives'
    rw [requested_withUsers gives, requested_withUsers hswapped]
    have hmain : (userRequest ("api", "main")).resourceKey = "account:main" := by decide +kernel
    have hjobs : (userRequest ("worker", "jobs")).resourceKey = "account:jobs" := by decide +kernel
    have hlast : (userRequest ("audit", "main")).resourceKey = "account:main" := by decide +kernel
    -- the two that change places are for different resources
    simp only [Requirement.sharing, List.map_cons, List.map_nil, List.filter_cons, hmain, hjobs,
      hlast]
    by_cases hkey : "account:jobs" = key
    · simp [← hkey]
    · simp [hkey]
  have outcome : (fun r : (Except Fault Summary × Backend Unit) × Site Unit =>
      (r.1.1.toOption.isSome, Table.keys r.1.2.resources)) ((b.start (.ok {})).run site)
        = (true, ["account:main", "account:jobs"]) := by decide +kernel
  have outcome' : Table.keys ((swapped.start (.ok {})).run site).1.2.resources
      = ["account:jobs", "account:main"] := by decide +kernel
  rcases started : (b.start (.ok {})).run site with ⟨⟨fault | summary, after⟩, s'⟩
  · rw [started] at outcome
    cases outcome
  · rw [started] at outcome
    injection outcome with _ published
    obtain ⟨summary', after', s'', restarted, -, same⟩ :=
      order_of_components_is_immaterial standard allPure unchecked reorders started ⟨(), []⟩
    have hrestarted : (swapped.start (.ok {})).run site = ((.ok summary', after'), s'') := restarted
    rw [hrestarted] at outcome'
    exact ⟨summary, after, s', summary', after', s'', rfl, hrestarted, published, outcome', same⟩

end Backend

end Depot
