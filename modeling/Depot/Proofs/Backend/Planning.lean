/-
What a plan has on record. A plan goes through collecting, validating and
merging like an initialisation, but writes faults down and goes on: it
asks validators although providers are missing, leaves out the groups of
missing types and merges the rest although validators refused.

For a repeatable backend all of that is computed from the answers of the
phases (`answer_plan`): a fold over the groups that starts from what was
checked. Two facts tell the answers from the records. Records are texts,
and different phases have different titles (`Phase.eq_of_complaint`); and
merging takes nothing off the record and adds nothing about the phases
before it (`Plan.GoesOn`).
-/
import Depot.Proofs.Backend.Repeatable

namespace Depot

variable {σ : Type}

-- ============================================================= records

/-- The titles of different phases differ from the first letter on. -/
theorem Phase.title_initial {p q : Phase} (h : p.title.toList.head? = q.title.toList.head?) :
    p = q := by
  cases p with
  | _ =>
      cases q with
      | _ => simp_all [Phase.title]

/-- A complaint begins with the letter its phase begins with. -/
theorem Phase.initial_of_complaint (p : Phase) (what : String) :
    (s!"{p.title} failed: {what}").toList.head? = p.title.toList.head? := by
  have hne : p.title.toList ≠ [] := by
    cases p with
    | _ => decide
  show (p.title ++ " failed: " ++ what).toList.head? = _
  rw [String.toList_append, String.toList_append, List.append_assoc,
    List.head?_append_of_ne_nil _ hne]

/-- What is recorded tells the phase. -/
theorem Phase.eq_of_complaint {p q : Phase} {what other : String}
    (h : s!"{p.title} failed: {what}" = s!"{q.title} failed: {other}") : p = q := by
  have hfirst := congrArg (fun text => text.toList.head?) h
  rw [initial_of_complaint, initial_of_complaint] at hfirst
  exact title_initial hfirst

namespace Plan

/-- Something went wrong in the phase, by the plan's records. -/
def Recorded (p : Plan σ) (phase : Phase) : Prop :=
  ∃ what : String, s!"{phase.title} failed: {what}" ∈ p.errors

/-- An error puts its phase on record and no other. -/
theorem recorded_recordError {p : Plan σ} {phase other : Phase} {what : String} :
    (p.recordError phase what).Recorded other ↔ p.Recorded other ∨ other = phase := by
  constructor
  · rintro ⟨what', hin⟩
    rcases List.mem_append.1 hin with hin | hin
    · exact .inl ⟨what', hin⟩
    · exact .inr (Phase.eq_of_complaint (List.mem_singleton.1 hin))
  · rintro (⟨what', hin⟩ | rfl)
    · exact ⟨what', List.mem_append_left _ hin⟩
    · exact ⟨what, List.mem_append_right _ (List.mem_singleton_self _)⟩

/-- One plan is a later state of another, from before or in the middle of
merging: nothing is taken off the record, and nothing comes on it but
about merging. -/
structure GoesOn (p p' : Plan σ) : Prop where
  missing : p'.missing = p.missing
  kept : ∀ phase, p.Recorded phase → p'.Recorded phase
  added : ∀ phase, p'.Recorded phase → p.Recorded phase ∨ phase = .merge

theorem GoesOn.refl (p : Plan σ) : p.GoesOn p := ⟨rfl, fun _ h => h, fun _ h => .inl h⟩

theorem GoesOn.trans {p p' p'' : Plan σ} (h : p.GoesOn p') (h' : p'.GoesOn p'') :
    p.GoesOn p'' where
  missing := h'.missing.trans h.missing
  kept phase recorded := h'.kept phase (h.kept phase recorded)
  added phase recorded := (h'.added phase recorded).elim (h.added phase) .inr

theorem not_recorded {p : Plan σ} (h : p.errors = []) (phase : Phase) : ¬ p.Recorded phase := by
  rintro ⟨what, hin⟩
  rw [h] at hin
  cases hin

/-- A plan with something on record is no success. -/
theorem failure_of_recorded {p : Plan σ} {phase : Phase} (h : p.Recorded phase) :
    p.success = false := by
  obtain ⟨what, hin⟩ := h
  unfold success
  rw [List.isEmpty_eq_false_iff.2 (List.ne_nil_of_mem hin), Bool.false_and]

/-- A plan with a type that nobody provides is no success. -/
theorem failure_of_missing {p : Plan σ} (h : p.missing ≠ []) : p.success = false := by
  unfold success
  rw [List.isEmpty_eq_false_iff.2 h, Bool.and_false]

/-- A plan is a success if nothing is on record and nothing is missing. -/
theorem success_iff {p : Plan σ} : p.success = true ↔ p.errors = [] ∧ p.missing = [] := by
  unfold success
  rw [Bool.and_eq_true, List.isEmpty_iff, List.isEmpty_iff]

end Plan

namespace Backend

-- =========================================================== the plan

/-- The sources of requests, each once, where they can be told apart. -/
def distinctSources (requests : List (Request σ)) : List Value :=
  (do Merge.addSources [] ((← sourcesOf requests).filter Value.isTruthy)).toOption.getD []

/-- The plan with one more group, by what merging the group answers. -/
def plannedGroup (b : Backend σ) (d : Desk σ) (p : Plan σ) (group : String × List (Request σ)) :
    Plan σ :=
  let type := (group.2.head?.map fun r => r.type).getD .null
  if type.isAmong p.missing then p
  else match (b.mergeGroup group).answer d with
    | .error fault => p.recordError .merge fault.reason
    | .ok merged => p.record merged (distinctSources group.2)

/-- The plan before any group is merged, by what is missing and what the
validators answer. -/
def checkedPlan (b : Backend σ) (missing : List Value) (checks : Except Fault Verdict) : Plan σ :=
  let start : Plan σ := { backendId := b.id, missing := missing }
  match checks with
  | .error fault => start.recordError .validate fault.reason
  | .ok verdict =>
      { verdict.errors.foldl (fun p e => p.recordError .validate e.label) start with
        warnings := verdict.warnings }

/-- A source that cannot be told from others ends their listing. -/
theorem exists_of_addSources_error {known new : List Value} {fault : Fault}
    (h : Merge.addSources known new = .error fault) :
    ∃ s ∈ new, s.canName = false ∧ fault = s.cannotName := by
  induction new generalizing known with
  | nil => cases h
  | cons s new ih =>
      unfold Merge.addSources at h ih
      rw [List.foldlM_cons] at h
      cases hname : s.canName with
      | false =>
          rw [hname] at h
          cases h
          exact ⟨s, by simp, hname, rfl⟩
      | true =>
          rw [hname] at h
          obtain ⟨s', hs', hfault⟩ := ih h
          exact ⟨s', by simp [hs'], hfault⟩

/-- Sources that can be told apart can be collected. -/
theorem addSources_ok {known new : List Value} (h : ∀ s ∈ new, s.canName = true) :
    ∃ sources, Merge.addSources known new = .ok sources := by
  cases hlisted : Merge.addSources known new with
  | ok sources => exact ⟨sources, rfl⟩
  | error fault =>
      obtain ⟨s, hs, hunnamed, -⟩ := exists_of_addSources_error hlisted
      rw [h s hs] at hunnamed
      cases hunnamed

/-- The distinct sources are what collecting the sources gives, where it
succeeds. -/
theorem distinctSources_eq {requests : List (Request σ)} {sources distinct : List Value}
    (hsources : sourcesOf requests = .ok sources)
    (hdistinct : Merge.addSources [] (sources.filter Value.isTruthy) = .ok distinct) :
    distinctSources requests = distinct := by
  unfold distinctSources
  rw [hsources]
  show (Merge.addSources [] (sources.filter Value.isTruthy)).toOption.getD [] = distinct
  rw [hdistinct]
  rfl

/-- One more group, with nothing but the merge that could go wrong. -/
theorem answer_planGroup (b : Backend σ) {group : String × List (Request σ)}
    (h : ∀ r ∈ group.2, r.Repeatable) (d : Desk σ) (p : Plan σ) :
    (b.planGroup p group).answer d = .ok (b.plannedGroup d p group) := by
  obtain ⟨sources, hsources, hnames⟩ := sourcesOf_ok fun r hr => (h r hr).source
  obtain ⟨distinct, hdistinct⟩ := @addSources_ok [] (sources.filter Value.isTruthy)
    fun s hs => hnames s (List.mem_filter.1 hs).1
  unfold planGroup plannedGroup
  dsimp only
  split
  · rfl
  · unfold Work.answer
    rw [run_bind, Work.run_outcome]
    dsimp only
    rcases (b.mergeGroup group).run d with ⟨fault | merged, d'⟩
    · rfl
    · dsimp only
      rw [hsources, distinctSources_eq hsources hdistinct, run_bind, Work.run_ofExcept]
      dsimp only
      rw [run_bind, hdistinct]
      rfl

/-- Planning one group is steady if the collaborators repeat themselves. -/
theorem steady_planGroup {b : Backend σ} (repeatable : b.Repeatable) (p : Plan σ)
    (group : String × List (Request σ)) : (b.planGroup p group).Steady := by
  unfold planGroup
  dsimp only
  split
  · exact .pure p
  · refine .bind (.outcome (steady_mergeGroup repeatable.providers group)) fun outcome _ => ?_
    cases outcome with
    | error fault => exact .pure _
    | ok merged => exact .bind (.ofExcept _) fun _ _ => .bind (.ofExcept _) fun _ _ => .pure _

/-- The members of a group are as repeatable as the requests it was made
from. -/
theorem repeatable_of_mem_groups {requests : List (Request σ)} (h : ∀ r ∈ requests, r.Repeatable)
    {group : String × List (Request σ)} (hgroup : group ∈ groups requests) :
    ∀ r ∈ group.2, r.Repeatable := by
  intro r hr
  rw [(Requirement.of_mem_groupByResourceKey _ hgroup).1] at hr
  exact h r (List.mem_filter.1 hr).1

/-- The plan with all groups merged. -/
def planMerges (b : Backend σ) (requests : List (Request σ)) (checked : Plan σ) :
    Work σ (Plan σ) := do
  let plan ← (groups requests).foldlM b.planGroup checked
  Work.report [b.event .debug "backend_planned" [("resources", .int plan.total),
    ("missing_types", .list plan.missing), ("errors", .int plan.errors.length)]]
  return plan

/-- The plan for collected requests. -/
def planRequests (b : Backend σ) (requests : List (Request σ)) : Work σ (Plan σ) := do
  let coverage ← b.registry.coverage (requests.map Request.toRequirement)
  let checks ← (b.runValidators requests).outcome
  b.planMerges requests (b.checkedPlan coverage.missing checks)

/-- A plan first collects; an error there ends it, else the requests are
planned. -/
theorem plan_eq (b : Backend σ) (settings : Except Fault Settings) :
    b.plan settings = (do
      match ← (b.requested settings).outcome with
      | .error fault => return ({ backendId := b.id } : Plan σ).recordError .collect fault.reason
      | .ok requests => b.planRequests requests) := rfl

section Plans

variable {b : Backend σ} (repeatable : b.Repeatable) {requests : List (Request σ)}

include repeatable in
theorem steady_planMerges (checked : Plan σ) : (b.planMerges requests checked).Steady := by
  refine .bind (.foldlM (fun p group _ => steady_planGroup repeatable p group) checked) ?_
  exact fun plan _ => .bind (.report _) fun _ _ => .pure plan

include repeatable in
/-- The answer of planning the merges is a fold over the groups. -/
theorem answer_planMerges (h : ∀ r ∈ requests, r.Repeatable) (d : Desk σ) (checked : Plan σ) :
    (b.planMerges requests checked).answer d
      = .ok ((groups requests).foldl (b.plannedGroup d) checked) := by
  unfold planMerges
  rw [Work.answer_bind fun plan _ => .bind (.report _) fun _ _ => .pure plan,
    Work.answer_foldlM (fun p group _ => steady_planGroup repeatable p group)
      (fun p group hgroup => answer_planGroup b (repeatable_of_mem_groups h hgroup) d p)]
  rfl

include repeatable in
theorem steady_planRequests (h : ∀ r ∈ requests, r.Repeatable) :
    (b.planRequests requests).Steady := by
  refine .bind (Registry.steady_coverage repeatable.providers _) fun coverage _ => ?_
  refine .bind (.outcome (b.steady_runValidators fun r hr => (h r hr).validates)) fun checks _ => ?_
  exact steady_planMerges repeatable _

include repeatable in
/-- The answer of planning the requests: coverage, then checks, then the
groups. -/
theorem answer_planRequests (h : ∀ r ∈ requests, r.Repeatable) (d : Desk σ) :
    (b.planRequests requests).answer d = do
      let coverage ← (b.registry.coverage (requests.map Request.toRequirement)).answer d
      let checks := (b.runValidators requests).answer d
      return (groups requests).foldl (b.plannedGroup d)
        (b.checkedPlan coverage.missing checks) := by
  have hmerges : ∀ coverage : Coverage, (do
      let checks ← (b.runValidators requests).outcome
      b.planMerges requests (b.checkedPlan coverage.missing checks)).Steady := fun coverage =>
    .bind (.outcome (b.steady_runValidators fun r hr => (h r hr).validates)) fun checks _ =>
      steady_planMerges repeatable _
  unfold planRequests
  rw [Work.answer_bind fun coverage _ => hmerges coverage]
  congr 1
  funext coverage
  rw [Work.answer_bind fun checks _ => steady_planMerges repeatable _, Work.answer_outcome]
  exact answer_planMerges repeatable h d _

include repeatable in
/-- A plan is computed from the answers of the phases. -/
theorem answer_plan (coherent : b.Coherent) (settings : Except Fault Settings) (d : Desk σ) :
    (b.plan settings).answer d = match (b.requested settings).answer d with
      | .error fault => .ok (({ backendId := b.id } : Plan σ).recordError .collect fault.reason)
      | .ok requests => do
          let coverage ← (b.registry.coverage (requests.map Request.toRequirement)).answer d
          let checks := (b.runValidators requests).answer d
          return (groups requests).foldl (b.plannedGroup d)
            (b.checkedPlan coverage.missing checks) := by
  rw [plan_eq, Work.answer_bind, Work.answer_outcome]
  · rcases hanswer : (b.requested settings).answer d with fault | requests
    · rfl
    · have hrequests := repeatable_of_requested coherent repeatable ⟨d, hanswer⟩
      exact answer_planRequests repeatable hrequests d
  · intro outcome houtcome
    cases outcome with
    | error fault => exact .pure _
    | ok requests =>
        obtain ⟨e, he⟩ := houtcome
        rw [Work.answer_outcome] at he
        injection he with he
        exact steady_planRequests repeatable (repeatable_of_requested coherent repeatable ⟨e, he⟩)

end Plans

-- ========================================================= the records

section Records

variable {b : Backend σ} {d : Desk σ}

/-- One more group is a later state of the plan. -/
theorem goesOn_plannedGroup (p : Plan σ) (group : String × List (Request σ)) :
    p.GoesOn (b.plannedGroup d p group) := by
  unfold plannedGroup
  dsimp only
  split
  · exact .refl p
  · split
    next fault hfault =>
      exact ⟨rfl, fun phase h => Plan.recorded_recordError.2 (.inl h),
        fun phase h => Plan.recorded_recordError.1 h⟩
    next merged hmerged => exact ⟨rfl, fun _ h => h, fun _ h => .inl h⟩

/-- A plan with any number of further groups is a later state of it. -/
theorem goesOn_foldl_plannedGroup (p : Plan σ) (gs : List (String × List (Request σ))) :
    p.GoesOn (gs.foldl (b.plannedGroup d) p) := by
  induction gs generalizing p with
  | nil => exact .refl p
  | cons group gs ih => exact (b.goesOn_plannedGroup p group).trans (ih _)

/-- If nothing is missing no group is left out. -/
theorem plannedGroup_of_missing {p : Plan σ} (missing : p.missing = [])
    (group : String × List (Request σ)) :
    b.plannedGroup d p group = match (b.mergeGroup group).answer d with
      | .error fault => p.recordError .merge fault.reason
      | .ok merged => p.record merged (distinctSources group.2) := by
  unfold plannedGroup
  rw [missing]
  rfl

/-- If nothing is missing, a merge that fails is recorded. -/
theorem recorded_merge_of_error {p : Plan σ} (missing : p.missing = [])
    {gs : List (String × List (Request σ))} {fault : Fault}
    (h : (gs.mapM fun group => (b.mergeGroup group).answer d) = .error fault) :
    (gs.foldl (b.plannedGroup d) p).Recorded .merge := by
  induction gs generalizing p with
  | nil => cases h
  | cons group gs ih =>
      have hstep := b.plannedGroup_of_missing (d := d) missing group
      rw [List.mapM_cons] at h
      rw [List.foldl_cons]
      cases hanswer : (b.mergeGroup group).answer d with
      | error fault' =>
          rw [hanswer] at hstep
          have hnow : (b.plannedGroup d p group).Recorded .merge := by
            rw [hstep]
            exact Plan.recorded_recordError.2 (.inr rfl)
          exact (goesOn_foldl_plannedGroup _ gs).kept _ hnow
      | ok merged =>
          rw [hanswer] at h
          refine ih ((goesOn_plannedGroup p group).missing.trans missing) ?_
          cases hrest : gs.mapM fun group => (b.mergeGroup group).answer d with
          | error fault' =>
              rw [hrest] at h
              exact h
          | ok rest =>
              rw [hrest] at h
              cases h

/-- If nothing is missing and all merges succeed, the plan holds what they
give, in order, and nothing more is recorded. -/
theorem foldl_plannedGroup_of_ok {p : Plan σ} (missing : p.missing = [])
    {gs : List (String × List (Request σ))} {merged : List (Request σ)}
    (h : (gs.mapM fun group => (b.mergeGroup group).answer d) = .ok merged)
    (named : ∀ group ∈ gs, ∀ r, (b.mergeGroup group).answer d = .ok r → r.resourceKey = group.1)
    (distinct : (gs.map Prod.fst).Nodup)
    (fresh : ∀ group ∈ gs, group.1 ∉ Table.keys p.requirements) :
    (gs.foldl (b.plannedGroup d) p).errors = p.errors
      ∧ (gs.foldl (b.plannedGroup d) p).requirements.map Prod.snd
        = p.requirements.map Prod.snd ++ merged := by
  induction gs generalizing p merged with
  | nil =>
      cases h
      exact ⟨rfl, (List.append_nil _).symm⟩
  | cons group gs ih =>
      obtain ⟨hnew, hdistinct⟩ := List.nodup_cons.1 distinct
      rw [List.mapM_cons] at h
      obtain ⟨first, hfirst, h⟩ := bind_eq_ok.1 h
      obtain ⟨rest, hrest, h⟩ := bind_eq_ok.1 h
      cases h
      have hstep := b.plannedGroup_of_missing (d := d) missing group
      rw [hfirst] at hstep
      -- the key is new, so the merged request goes to the end
      have hput : (b.plannedGroup d p group).requirements
          = p.requirements ++ [(group.1, first)] := by
        rw [hstep, ← named group (by simp) first hfirst]
        refine Table.put_of_notMem ?_ first
        rw [named group (by simp) first hfirst]
        exact fresh group (by simp)
      have hfresh : ∀ g ∈ gs, g.1 ∉ Table.keys (b.plannedGroup d p group).requirements := by
        rw [hput]
        exact Table.fresh_concat hnew fresh first
      obtain ⟨herrors, hrequirements⟩ := ih ((goesOn_plannedGroup p group).missing.trans missing)
        hrest (fun g hg => named g (by simp [hg])) hdistinct hfresh
      rw [List.foldl_cons]
      refine ⟨?_, ?_⟩
      · rw [herrors, hstep]
        rfl
      · rw [hrequirements, hput, List.map_append, List.append_assoc]
        rfl

end Records

/-- Several errors of one phase are recorded in order. -/
theorem foldl_recordError (p : Plan σ) (phase : Phase) (errors : List Value) :
    errors.foldl (fun p e => p.recordError phase e.label) p
      = { p with errors :=
          p.errors ++ errors.map fun e => s!"{phase.title} failed: {e.label}" } := by
  induction errors generalizing p with
  | nil =>
      rw [List.foldl_nil, List.map_nil, List.append_nil]
  | cons e errors ih =>
      rw [List.foldl_cons, ih, List.map_cons]
      unfold Plan.recordError
      rw [List.append_assoc]
      rfl

/-- What validating records: the fault of a validator, or the errors of
all. -/
def objections : Except Fault Verdict → List String
  | .error fault => [fault.reason]
  | .ok verdict => verdict.errors.map Value.label

/-- Checks have no objections if they came to a verdict without errors. -/
theorem objections_eq_nil_iff {checks : Except Fault Verdict} :
    objections checks = [] ↔ ∃ verdict, checks = .ok verdict ∧ verdict.errors = [] := by
  cases checks with
  | error fault => simp [objections]
  | ok verdict => simp [objections]

section Checked

variable (b : Backend σ) (missing : List Value) (checks : Except Fault Verdict)

theorem missing_checkedPlan : (b.checkedPlan missing checks).missing = missing := by
  cases checks with
  | error fault => rfl
  | ok verdict =>
      show (verdict.errors.foldl _ _ : Plan σ).missing = missing
      rw [foldl_recordError]

/-- Before merging a plan lists no requirements. -/
theorem requirements_checkedPlan : (b.checkedPlan missing checks).requirements = [] := by
  cases checks with
  | error fault => rfl
  | ok verdict =>
      show (verdict.errors.foldl _ _ : Plan σ).requirements = []
      rw [foldl_recordError]

/-- The errors before merging are the objections, each under its phase. -/
theorem errors_checkedPlan :
    (b.checkedPlan missing checks).errors
      = (objections checks).map fun what => s!"{Phase.validate.title} failed: {what}" := by
  cases checks with
  | error fault => rfl
  | ok verdict =>
      show (verdict.errors.foldl _ _ : Plan σ).errors = _
      rw [foldl_recordError]
      exact (List.map_map ..).symm

/-- Before merging only validation is on record, and only for an objection. -/
theorem recorded_checkedPlan {phase : Phase} :
    (b.checkedPlan missing checks).Recorded phase ↔ phase = .validate ∧ objections checks ≠ [] := by
  unfold Plan.Recorded
  rw [errors_checkedPlan]
  constructor
  · rintro ⟨what, hin⟩
    obtain ⟨what', hin, hsame⟩ := List.mem_map.1 hin
    exact ⟨Phase.eq_of_complaint hsame.symm, List.ne_nil_of_mem hin⟩
  · rintro ⟨rfl, hsome⟩
    obtain ⟨what, hwhat⟩ := List.exists_mem_of_ne_nil _ hsome
    exact ⟨what, List.mem_map.2 ⟨what, hwhat, rfl⟩⟩

variable {b missing checks} {p : Plan σ} (goesOn : (b.checkedPlan missing checks).GoesOn p)

include goesOn in
theorem not_recorded_collect : ¬ p.Recorded .collect := by
  intro recorded
  rcases goesOn.added _ recorded with recorded | hmerge
  · cases ((b.recorded_checkedPlan _ _).1 recorded).1
  · cases hmerge

include goesOn in
/-- Validation is on record exactly for an objection, also after merging. -/
theorem recorded_validate_iff : p.Recorded .validate ↔ objections checks ≠ [] := by
  constructor
  · intro recorded
    rcases goesOn.added _ recorded with recorded | hmerge
    · exact ((b.recorded_checkedPlan _ _).1 recorded).2
    · cases hmerge
  · intro hsome
    exact goesOn.kept _ ((b.recorded_checkedPlan _ _).2 ⟨rfl, hsome⟩)
end Checked

end Backend

end Depot
