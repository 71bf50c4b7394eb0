/-
Plans foretell initialisations. The two are different drivers of the same
phases: an initialisation stops at the first fault, a plan goes on to the
end. For a repeatable backend they agree nevertheless, on every mix of
failures (`plan_foretells_start`).

A run is computed from the answers of the phases wherever it takes place
(`run_ofWork_of_answer`), and so is the plan. What is left is to compare
both case by case: the first phase whose answer is a fault is the one the
initialisation fails in, and the first one with something on record.
-/
import Depot.Proofs.Backend.Planning

namespace Depot

variable {σ : Type}

/-- A verdict raises nothing exactly if it is valid. -/
theorem Verdict.raiseForErrors_ok_iff {v : Verdict} :
    v.raiseForErrors = .ok () ↔ v.valid = true := by
  unfold raiseForErrors
  by_cases h : v.valid = true
  · simp [h]
  · simp [h]

namespace Backend

-- ============================================================ outcomes

/-- The initialisation fails in a phase. -/
def FailsIn (b : Backend σ) (settings : Except Fault Settings) (s : Site σ) (phase : Phase) :
    Prop :=
  ∃ cause b' s', (b.start settings).run s
    = ((.error (.initializationFailure b.id (.str phase.name) cause), b'), s')

/-- The initialisation gets past collecting, validating and merging, and
hands merged requests to provisioning. What it does from there on is the
rest of `runPhases_eq`. -/
def HandsOver (b : Backend σ) (settings : Except Fault Settings) (s : Site σ)
    (merged : List (Request σ)) : Prop :=
  ∃ requests s', (b.prepared settings).run (b.begun s) = (.ok (requests, merged), s')

section Outcomes

variable {b : Backend σ} (collecting : b.state = .collecting)
  {settings : Except Fault Settings} {s : Site σ}

include collecting in
theorem failsIn_of_stopsIn {phase : Phase} {cause : Fault} {s' : Site σ}
    (h : StopsIn b settings (b.begun s) phase cause s') : b.FailsIn settings s phase :=
  ⟨cause, _, _, (start_error_iff collecting).2 ⟨rfl, phase, cause, s', h, rfl, rfl⟩⟩

include collecting in
/-- What was handed over did not fail before. -/
theorem HandsOver.not_failsIn {merged : List (Request σ)} (h : b.HandsOver settings s merged)
    {phase : Phase} (hphase : phase ∈ [Phase.collect, .validate, .merge]) :
    ¬ b.FailsIn settings s phase := by
  rintro ⟨cause, b', s', hfails⟩
  obtain ⟨requests, s₁, h⟩ := h
  obtain ⟨-, stopped, cause', s₂, hstops, hsame, -⟩ := (start_error_iff collecting).1 hfails
  have hearly : (b.prepared settings).run (b.begun s) = (.error _, b.reporting stopped cause' s₂) :=
    prepared_error_iff.2 ⟨stopped, phase_of_initializationFailure hsame ▸ hphase, cause', s₂,
      hstops, rfl, rfl⟩
  rw [h] at hearly
  cases hearly

end Outcomes

-- ========================================================== the run

/-- Steady work without a site answers the same at every site. -/
theorem run_ofWork_of_answer {α : Type} {w : Work σ α} (steady : w.Steady) {d : Desk σ}
    {r : Except Fault α} (h : w.answer d = r) (s : Site σ) :
    ∃ s', (SiteWork.ofWork w).run s = (r, s') := by
  refine ⟨_, Prod.ext ?_ rfl⟩
  exact (steady s.toDesk d).trans h

/-- Collecting under the caller's scope gives what collecting away from it
gives. -/
theorem run_collecting_of_answer {b : Backend σ} (repeatable : b.Repeatable)
    {settings : Except Fault Settings} {d : Desk σ} {r : Except Fault (List (Request σ))}
    (h : (b.requested settings).answer d = r) (s : Site σ) :
    ∃ s', (b.collecting settings).run s = (r, s') := by
  unfold requested Work.answer at h
  unfold Backend.collecting
  rw [run_bind, Work.run_ofExcept] at h
  rw [run_bind, SiteWork.run_ofExcept]
  cases hmark : b.mark settings with
  | error fault =>
      rw [hmark] at h
      exact ⟨s, Prod.ext h rfl⟩
  | ok mark =>
      rw [hmark] at h
      exact run_ofWork_of_answer (steady_collect repeatable mark) h _

/-- Whether all is covered is told by what is missing. -/
theorem valid_of_gives_coverage {reg : Registry σ} {rs : List Requirement} {coverage : Coverage}
    (h : (reg.coverage rs).Gives coverage) : coverage.valid = coverage.missing.isEmpty := by
  obtain ⟨missing, -, d, hd⟩ := Work.gives_bind h
  cases hd
  rfl

/-- Whether the validators agree is told by their errors. -/
theorem valid_of_gives_runValidators {b : Backend σ} {requests : List (Request σ)}
    {verdict : Verdict} (h : (b.runValidators requests).Gives verdict) :
    verdict.valid = verdict.errors.isEmpty := by
  obtain ⟨found, -, d, hd⟩ := Work.gives_bind h
  cases hd
  rfl

/-- Checking requests is steady if the providers and validators are. -/
theorem steady_checkRequests {b : Backend σ} (providers : ∀ p ∈ b.registry.all, p.Repeatable)
    {requests : List (Request σ)} (validates : ∀ r ∈ requests, ∀ v ∈ r.validators,
      ∀ q surroundings, (v.validate q surroundings).Steady) :
    (b.checkRequests requests).Steady := by
  refine .bind (Registry.steady_coverage providers _) fun coverage _ => ?_
  dsimp only
  split
  · exact .bind (.ofExcept _) fun list _ => .throw _
  · refine .bind (b.steady_runValidators validates) fun verdict _ => ?_
    exact .bind (.report _) fun _ _ => .ofExcept _

/-- Requests pass if nothing is missing and no validator objects. -/
theorem answer_checkRequests_ok_iff {b : Backend σ} {requests : List (Request σ)}
    (validates : ∀ r ∈ requests, ∀ v ∈ r.validators, ∀ q surroundings,
      (v.validate q surroundings).Steady) {d : Desk σ} :
    (b.checkRequests requests).answer d = .ok () ↔
      (∃ coverage, (b.registry.coverage (requests.map Request.toRequirement)).answer d
          = .ok coverage ∧ coverage.missing = [])
        ∧ ∃ verdict, (b.runValidators requests).answer d = .ok verdict ∧ verdict.errors = [] := by
  constructor
  · intro hok
    obtain ⟨coverage, d₁, hcoverage, hok⟩ := run_bind_ok.1 (Prod.ext hok rfl)
    have hvalid := valid_of_gives_coverage (Work.gives_of_run hcoverage)
    dsimp only at hok
    split at hok
    next =>
      obtain ⟨list, d₂, -, hok⟩ := run_bind_ok.1 hok
      cases hok
    next hcovers =>
      rw [Bool.not_eq_true', Bool.not_eq_false, hvalid, List.isEmpty_iff] at hcovers
      obtain ⟨verdict, d₂, hverdict, hok⟩ := run_bind_ok.1 hok
      have hagree := valid_of_gives_runValidators (Work.gives_of_run hverdict)
      obtain ⟨_, d₃, -, hok⟩ := run_bind_ok.1 hok
      have hraise := Verdict.raiseForErrors_ok_iff.1 (congrArg Prod.fst hok)
      rw [hagree, List.isEmpty_iff] at hraise
      refine ⟨⟨coverage, congrArg Prod.fst hcoverage, hcovers⟩, verdict, ?_, hraise⟩
      rw [b.steady_runValidators validates d d₁]
      exact congrArg Prod.fst hverdict
  · rintro ⟨⟨coverage, hcoverage, hcovers⟩, verdict, hverdict, hagrees⟩
    have hvalid := valid_of_gives_coverage ⟨d, hcoverage⟩
    have hagree := valid_of_gives_runValidators ⟨d, hverdict⟩
    rw [hcovers, List.isEmpty_nil] at hvalid
    rw [hagrees, List.isEmpty_nil] at hagree
    obtain ⟨d₁, hcoverage⟩ := Work.run_of_answer hcoverage
    obtain ⟨d₂, hverdict⟩ := (b.steady_runValidators validates).run hverdict d₁
    show ((b.checkRequests requests).run d).1 = .ok ()
    unfold checkRequests
    rw [run_bind, hcoverage]
    dsimp only
    rw [hvalid, if_neg (by decide), run_bind, hverdict]
    exact Verdict.raiseForErrors_ok_iff.2 hagree

theorem steady_mergeGroups {b : Backend σ} (providers : ∀ p ∈ b.registry.all, p.Repeatable)
    (requests : List (Request σ)) : (b.mergeGroups requests).Steady :=
  .mapM fun group _ => steady_mergeGroup providers group

section Answers

variable {b : Backend σ} (collecting : b.state = .collecting) (coherent : b.Coherent)
  (repeatable : b.Repeatable) {settings : Except Fault Settings} {s : Site σ} {d : Desk σ}
  {requests : List (Request σ)}

include repeatable in
/-- A start collects the requests that a dry run collects. -/
theorem collected_of_answer (hcollect : (b.requested settings).answer d = .ok requests)
    (s : Site σ) : ∃ s', (b.collected settings).run s = (.ok requests, s') := by
  obtain ⟨s', hs'⟩ := run_collecting_of_answer repeatable hcollect (b.entering .collect s)
  exact ⟨s', run_inPhase_ok.2 hs'⟩

include collecting repeatable in
/-- Where the dry run cannot collect, a start fails in that phase. -/
theorem failsIn_collect {cause : Fault}
    (hcollect : (b.requested settings).answer d = .error cause) :
    b.FailsIn settings s .collect := by
  obtain ⟨s', hs'⟩ :=
    run_collecting_of_answer repeatable hcollect (b.entering .collect (b.begun s))
  exact failsIn_of_stopsIn collecting (.collect hs')

include coherent repeatable in
/-- A start checks the requests as the dry run does. -/
theorem checked_of_answer (hcollect : (b.requested settings).answer d = .ok requests)
    {r : Except Fault Unit} (hcheck : (b.checkRequests requests).answer d = r) (s : Site σ) :
    ∃ s₁ s₂, (b.collected settings).run s = (.ok requests, s₁)
      ∧ (SiteWork.ofWork (b.checkRequests requests)).run (b.entering .validate s₁) = (r, s₂) := by
  have hrequests := repeatable_of_requested coherent repeatable ⟨d, hcollect⟩
  obtain ⟨s₁, hcollected⟩ := collected_of_answer repeatable hcollect s
  obtain ⟨s₂, hchecked⟩ := run_ofWork_of_answer (steady_checkRequests repeatable.providers
    fun r hr => (hrequests r hr).validates) hcheck (b.entering .validate s₁)
  exact ⟨s₁, s₂, hcollected, hchecked⟩

include collecting coherent repeatable in
/-- Where the check of the dry run fails, a start fails in that phase. -/
theorem failsIn_validate (hcollect : (b.requested settings).answer d = .ok requests)
    (hcheck : (b.checkRequests requests).answer d ≠ .ok ()) : b.FailsIn settings s .validate := by
  rcases hanswer : (b.checkRequests requests).answer d with cause | u
  · obtain ⟨s₁, s₂, hcollected, hstopped⟩ :=
      checked_of_answer coherent repeatable hcollect hanswer (b.begun s)
    exact failsIn_of_stopsIn collecting (.validate hcollected hstopped)
  · exact absurd hanswer hcheck

include collecting coherent repeatable in
/-- Where the dry run cannot merge, a start fails in that phase. -/
theorem failsIn_merge (hcollect : (b.requested settings).answer d = .ok requests)
    (hcheck : (b.checkRequests requests).answer d = .ok ()) {cause : Fault}
    (hmerge : (b.mergeGroups requests).answer d = .error cause) :
    b.FailsIn settings s .merge := by
  obtain ⟨s₁, s₂, hcollected, hchecked⟩ :=
    checked_of_answer coherent repeatable hcollect hcheck (b.begun s)
  obtain ⟨s₃, hstopped⟩ := run_ofWork_of_answer (steady_mergeGroups repeatable.providers requests)
    hmerge (b.entering .merge s₂)
  exact failsIn_of_stopsIn collecting (.merge hcollected hchecked hstopped)

include coherent repeatable in
/-- Where the dry run merges, a start hands over the same requests. -/
theorem handsOver_of_answer (hcollect : (b.requested settings).answer d = .ok requests)
    (hcheck : (b.checkRequests requests).answer d = .ok ()) {merged : List (Request σ)}
    (hmerge : (b.mergeGroups requests).answer d = .ok merged) :
    b.HandsOver settings s merged := by
  obtain ⟨s₁, s₂, hcollected, hchecked⟩ :=
    checked_of_answer coherent repeatable hcollect hcheck (b.begun s)
  obtain ⟨s₃, hmerged⟩ := run_ofWork_of_answer (steady_mergeGroups repeatable.providers requests)
    hmerge (b.entering .merge s₂)
  refine ⟨requests, s₃, ?_⟩
  refine run_bind_ok.2 ⟨requests, s₁, hcollected, ?_⟩
  refine run_bind_ok.2 ⟨(), s₂, run_inPhase_ok.2 hchecked, ?_⟩
  exact run_bind_ok.2 ⟨merged, s₃, run_inPhase_ok.2 hmerged, rfl⟩

end Answers

end Backend

-- ==================================================== what is foretold

/-- What a plan tells about an initialisation. -/
structure Plan.Foretells (p : Plan σ) (b : Backend σ) (settings : Except Fault Settings)
    (s : Site σ) : Prop where
  /-- A plan succeeds exactly if the initialisation gets to provisioning. -/
  success : p.success = true ↔ ∃ merged, b.HandsOver settings s merged
  /-- It gets there exactly if none of the phases before fails. -/
  past : p.success = true ↔
    ∀ phase ∈ [Phase.collect, .validate, .merge], ¬ b.FailsIn settings s phase
  /-- The requirements of the plan are those that are handed over. -/
  merged : p.success = true → b.HandsOver settings s (p.requirements.map Prod.snd)
  /-- The first phase with something on record is the one that fails. -/
  collect : p.Recorded .collect → b.FailsIn settings s .collect
  validate : ¬ p.Recorded .collect → p.missing ≠ [] ∨ p.Recorded .validate →
    b.FailsIn settings s .validate
  merge : p.success = false → ¬ p.Recorded .collect → p.missing = [] → ¬ p.Recorded .validate →
    b.FailsIn settings s .merge

namespace Backend

section Foretelling

variable {b : Backend σ} (collecting : b.state = .collecting)
  {settings : Except Fault Settings} {s : Site σ} {p : Plan σ}

include collecting in
/-- A plan that lists what a start hands over foretells it. -/
theorem foretells_of_handsOver (success : p.success = true)
    (h : b.HandsOver settings s (p.requirements.map Prod.snd)) : p.Foretells b settings s := by
  obtain ⟨errors, missing⟩ := Plan.success_iff.1 success
  exact {
    success := ⟨fun _ => ⟨_, h⟩, fun _ => success⟩
    past := ⟨fun _ phase hphase => h.not_failsIn collecting hphase, fun _ => success⟩
    merged := fun _ => h
    collect := fun recorded => absurd recorded (Plan.not_recorded errors _)
    validate := fun _ stands => by
      rcases stands with stands | recorded
      · exact absurd missing stands
      · exact absurd recorded (Plan.not_recorded errors _)
    merge := fun failure => by
      rw [success] at failure
      cases failure }

include collecting in
/-- A failure is foretold if the records are those of its phase. -/
theorem foretells_of_failsIn {phase : Phase} (hphase : phase ∈ [Phase.collect, .validate, .merge])
    (failure : p.success = false) (h : b.FailsIn settings s phase)
    (collect : p.Recorded .collect ↔ phase = .collect)
    (validate : phase ≠ .collect → (p.missing ≠ [] ∨ p.Recorded .validate ↔ phase = .validate)) :
    p.Foretells b settings s where
  success := by
    rw [failure]
    refine ⟨fun hno => absurd hno Bool.false_ne_true, ?_⟩
    rintro ⟨merged, hover⟩
    exact absurd h (hover.not_failsIn collecting hphase)
  past := by
    rw [failure]
    refine ⟨fun hno => absurd hno Bool.false_ne_true, fun hnone => ?_⟩
    exact absurd h (hnone phase hphase)
  merged := by
    rw [failure]
    intro hno
    cases hno
  collect recorded := by
    rw [← collect.1 recorded]
    exact h
  validate clear stands := by
    rw [← (validate fun hcollect => clear (collect.2 hcollect)).1 stands]
    exact h
  merge _ clear missing valid := by
    have hcollect : phase ≠ .collect := fun hcollect => clear (collect.2 hcollect)
    have hvalidate : phase ≠ .validate := by
      intro hvalidate
      rcases (validate hcollect).2 hvalidate with stands | recorded
      · exact stands missing
      · exact valid recorded
    have hmerge : phase = .merge := by simp_all
    rw [← hmerge]
    exact h

end Foretelling

section Checked

variable {b : Backend σ} {missing : List Value} {checks : Except Fault Verdict} {p : Plan σ}
  (goesOn : (b.checkedPlan missing checks).GoesOn p) (collecting : b.state = .collecting)
  {settings : Except Fault Settings} {s : Site σ}

include collecting goesOn in
/-- A plan with something amiss before merging foretells that validating
fails. -/
theorem foretells_validate (amiss : missing ≠ [] ∨ objections checks ≠ [])
    (h : b.FailsIn settings s .validate) : p.Foretells b settings s := by
  have hmissing := goesOn.missing.trans (b.missing_checkedPlan missing checks)
  have hvalidated := recorded_validate_iff goesOn
  have hfailure : p.success = false := by
    rcases amiss with hmiss | hobjects
    · rw [← hmissing] at hmiss
      exact Plan.failure_of_missing hmiss
    · exact Plan.failure_of_recorded (hvalidated.2 hobjects)
  refine foretells_of_failsIn collecting (by simp) hfailure h
    (iff_of_false (not_recorded_collect goesOn) nofun) fun _ => iff_of_true ?_ rfl
  rw [hmissing, hvalidated]
  exact amiss

include collecting goesOn in
/-- A plan with nothing amiss before merging, but a merge that failed,
foretells just that. -/
theorem foretells_merge (covers : missing = []) (agrees : objections checks = [])
    (recorded : p.Recorded .merge) (h : b.FailsIn settings s .merge) :
    p.Foretells b settings s := by
  have hmissing := goesOn.missing.trans (b.missing_checkedPlan missing checks)
  refine foretells_of_failsIn collecting (by simp) (Plan.failure_of_recorded recorded) h
    (iff_of_false (not_recorded_collect goesOn) nofun) fun _ => iff_of_false ?_ nofun
  rw [hmissing, recorded_validate_iff goesOn]
  rintro (hmiss | hobjects)
  · exact hmiss covers
  · exact hobjects agrees

end Checked

-- ========================================================= main result

section Agreement

variable {b : Backend σ} (collecting : b.state = .collecting) (coherent : b.Coherent)
  (repeatable : b.Repeatable) {settings : Except Fault Settings} {d : Desk σ}
  {requests : List (Request σ)} (s : Site σ)

include collecting coherent repeatable in
/-- A plan foretells what becomes of requests that were collected. -/
theorem foretells_of_answers (hcollect : (b.requested settings).answer d = .ok requests)
    {coverage : Coverage}
    (hcoverage : (b.registry.coverage (requests.map Request.toRequirement)).answer d
      = .ok coverage) :
    ((groups requests).foldl (b.plannedGroup d)
      (b.checkedPlan coverage.missing ((b.runValidators requests).answer d))).Foretells
        b settings s := by
  have hrequests := repeatable_of_requested coherent repeatable ⟨d, hcollect⟩
  generalize hchecks : (b.runValidators requests).answer d = checks
  have hpasses : (b.checkRequests requests).answer d = .ok () ↔
      coverage.missing = [] ∧ objections checks = [] := by
    rw [answer_checkRequests_ok_iff fun r hr => (hrequests r hr).validates, hchecks, hcoverage,
      objections_eq_nil_iff]
    simp
  have hgoes := b.goesOn_foldl_plannedGroup (d := d)
    (b.checkedPlan coverage.missing checks) (groups requests)
  by_cases hcheck : (b.checkRequests requests).answer d = .ok ()
  · obtain ⟨covers, agrees⟩ := hpasses.1 hcheck
    have hmissing := (b.missing_checkedPlan coverage.missing checks).trans covers
    have hmerges : (b.mergeGroups requests).answer d
        = (groups requests).mapM fun group => (b.mergeGroup group).answer d :=
      Work.answer_mapM (fun group _ => steady_mergeGroup repeatable.providers group) d
    cases hmerge : (b.mergeGroups requests).answer d with
    | error cause =>
        have hrecorded := recorded_merge_of_error hmissing (hmerges.symm.trans hmerge)
        exact foretells_merge hgoes collecting covers agrees hrecorded
          (failsIn_merge collecting coherent repeatable hcollect hcheck hmerge)
    | ok merged =>
        obtain ⟨herrors, hrequirements⟩ := foldl_plannedGroup_of_ok hmissing
          (hmerges.symm.trans hmerge)
          (fun group hgroup r hr =>
            resourceKey_of_gives_mergeGroup repeatable.providers hgroup ⟨d, hr⟩)
          (by
            rw [groups, Requirement.keys_groupByResourceKey]
            exact nodup_eraseDups _)
          (by
            rw [requirements_checkedPlan]
            exact fun _ _ => List.not_mem_nil)
        rw [errors_checkedPlan, agrees] at herrors
        rw [requirements_checkedPlan] at hrequirements
        refine foretells_of_handsOver collecting
          (Plan.success_iff.2 ⟨herrors, hgoes.missing.trans hmissing⟩) ?_
        rw [hrequirements]
        exact handsOver_of_answer coherent repeatable hcollect hcheck hmerge
  · have hamiss : coverage.missing ≠ [] ∨ objections checks ≠ [] := by
      rw [hpasses] at hcheck
      exact not_and_or.1 hcheck
    exact foretells_validate hgoes collecting hamiss
      (failsIn_validate collecting coherent repeatable hcollect hcheck)

include collecting coherent repeatable in
/-- A plan that is made foretells the start. -/
theorem foretells_of_plan {p : Plan σ} (h : (b.plan settings).answer d = .ok p) :
    p.Foretells b settings s := by
  rw [answer_plan repeatable coherent] at h
  split at h
  next fault hcollect =>
    cases h
    have hrecorded : (({ backendId := b.id } : Plan σ).recordError .collect
        fault.reason).Recorded .collect := Plan.recorded_recordError.2 (.inr rfl)
    exact foretells_of_failsIn collecting (by simp) (Plan.failure_of_recorded hrecorded)
      (failsIn_collect collecting repeatable hcollect) (iff_of_true hrecorded rfl)
      fun hne => absurd rfl hne
  next requests hcollect =>
    obtain ⟨coverage, hcoverage, h⟩ := bind_eq_ok.1 h
    cases h
    exact foretells_of_answers collecting coherent repeatable s hcollect hcoverage

include collecting coherent repeatable in
/-- A plan that cannot be made comes before a start that fails in
validation. -/
theorem failsIn_validate_of_plan {fault : Fault}
    (h : (b.plan settings).answer d = .error fault) : b.FailsIn settings s .validate := by
  rw [answer_plan repeatable coherent] at h
  split at h
  next => cases h
  next requests hcollect =>
    refine failsIn_validate collecting coherent repeatable hcollect fun hpasses => ?_
    have hrequests := repeatable_of_requested coherent repeatable ⟨d, hcollect⟩
    obtain ⟨⟨coverage, hcoverage, -⟩, -⟩ :=
      (answer_checkRequests_ok_iff fun r hr => (hrequests r hr).validates).1 hpasses
    rw [hcoverage] at h
    cases h

end Agreement

/-- A dry run tells what a run would do. Of a backend that was made and
used in any way and still collects, and whose collaborators repeat
themselves, a plan made anywhere foretells an initialisation anywhere: the
plan succeeds exactly if the initialisation gets past collecting,
validating and merging, and then its requirements are, in order, the ones
that are handed to provisioning; if it does not succeed, what it has on
record tells the phase that fails. The plan itself fails only where
providers cannot be asked, and then validating does. -/
theorem plan_foretells_start {b : Backend σ} (reachable : b.Reachable)
    (collecting : b.state = .collecting) (repeatable : b.Repeatable)
    (settings : Except Fault Settings) (d : Desk σ) (s : Site σ) :
    (∀ p d', (b.plan settings).run d = (.ok p, d') → p.Foretells b settings s)
      ∧ ∀ fault d', (b.plan settings).run d = (.error fault, d') →
        b.FailsIn settings s .validate := by
  have coherent := reachable.coherent
  refine ⟨fun p d' h => ?_, fun fault d' h => ?_⟩
  · exact foretells_of_plan collecting coherent repeatable s (congrArg Prod.fst h)
  · exact failsIn_validate_of_plan collecting coherent repeatable s (congrArg Prod.fst h)

/-- Accounts that cannot be shared. -/
def privateAccounts : Kind Unit Fields where
  id := .str "accounts"
  type := .str "account"
  types := [.str "account"]
  read := .ok
  write := fun config => config
  check := fun _ => .ok .ok
  mergeGroup := fun _ => (.error (.badValue "accounts cannot be shared"), [])
  make := fun name _ _ => pure (.value (.str name))

/-- Two components want one account. The plan goes on to the next one, with
the clash on record; an initialisation stops there. -/
theorem clash_on_record_stops_merging :
    let config : Config Unit := { providers := some [.provider privateAccounts.provider] }
    let made : Backend Unit := ⟨.str "app", config, (({} : Registry Unit).register
      (.provider privateAccounts.provider)).1, [], .collecting, [], []⟩
    let b := (Session.run ⟨made, ⟨(), []⟩⟩ [.add (.definition (accountUser "api" ["main"])),
      .add (.definition (accountUser "worker" ["main", "logs"]))]).backend
    let site : Site Unit := ⟨⟨(), []⟩, .node (.str "root") (.str "root") [] []⟩
    b.Reachable ∧ b.state = .collecting ∧ b.Repeatable ∧ ∃ p d',
      (b.plan (.ok {})).run ⟨(), []⟩ = (.ok p, d') ∧ p.Foretells b (.ok {}) site
        ∧ Table.keys p.requirements = ["account:logs"]
        ∧ p.errors = ["Merge failed: accounts cannot be shared"]
        ∧ b.FailsIn (.ok {}) site .merge := by
  intro config made b site
  have reachable : b.Reachable := ⟨.str "app", config, made, _, ⟨(), []⟩, _, rfl, rfl⟩
  have definitions : b.definitions = [(.str "api", accountUser "api" ["main"]),
    (.str "worker", accountUser "worker" ["main", "logs"])] := rfl
  have providers : b.registry.all = [privateAccounts.provider] := rfl
  have repeatable : b.Repeatable := by
    constructor
    · rw [definitions]
      intro e he
      rcases List.mem_cons.1 he with rfl | he
      · exact repeatable_accountUser "api" ["main"]
      · rw [List.mem_singleton.1 he]
        exact repeatable_accountUser "worker" ["main", "logs"]
    · rw [providers]
      intro p hp
      rw [List.mem_singleton.1 hp]
      exact privateAccounts.repeatable
  have outcome : (fun r : Except Fault (Plan Unit) × Desk Unit =>
      r.1.toOption.map fun p => (Table.keys p.requirements, p.missing, p.errors))
        ((b.plan (.ok {})).run ⟨(), []⟩)
      = some (["account:logs"], [], ["Merge failed: accounts cannot be shared"]) := rfl
  rcases planned : (b.plan (.ok {})).run ⟨(), []⟩ with ⟨fault | p, d'⟩
  · rw [planned] at outcome
    cases outcome
  · rw [planned] at outcome
    injection outcome with outcome
    injection outcome with requirements outcome
    injection outcome with missing errors
    have foretells := (plan_foretells_start reachable rfl repeatable (.ok {}) ⟨(), []⟩ site).1
      p d' planned
    -- the one error on record is about merging
    have recorded : ∀ phase, p.Recorded phase → phase = .merge := by
      rintro phase ⟨what, hin⟩
      rw [errors, List.mem_singleton] at hin
      exact @Phase.eq_of_complaint phase .merge what "accounts cannot be shared" hin
    have clash : p.Recorded .merge := by
      refine ⟨"accounts cannot be shared", ?_⟩
      rw [errors]
      exact List.mem_singleton.2 rfl
    refine ⟨reachable, rfl, repeatable, p, d', rfl, foretells, requirements, errors, ?_⟩
    refine foretells.merge (Plan.failure_of_recorded clash) ?_ missing ?_
    · exact fun h => nomatch recorded _ h
    · exact fun h => nomatch recorded _ h

end Backend

end Depot
