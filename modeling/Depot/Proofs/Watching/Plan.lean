/-
What a plan records on the list of calls: the calls of collecting and of
merging, which is what an initialisation records before it provisions. A
plan goes on where an initialisation stops, so there may be more of them;
but each of its steps is one of the same, and none makes a resource.
-/
import Depot.Proofs.Backend.Planning
import Depot.Proofs.Table
import Depot.Proofs.Watching.Preparation

namespace Depot

variable {σ : Type}

namespace Plan

/-- A plan with its requirements watched. -/
def watched (p : Plan σ) : Plan (Watched σ) :=
  { p with requirements := p.requirements.map fun e => (e.1, e.2.watched) }

theorem record_watched (p : Plan σ) (r : Request σ) (sources : List Value) :
    p.watched.record r.watched sources = (p.record r sources).watched := by
  unfold record
  congr 1
  exact Table.put_map Request.watched r.resourceKey r p.requirements

end Plan

namespace Backend

/-- Planning one group makes no resource. -/
theorem records_planGroup (b : Backend σ) (p : Plan σ) (group : String × List (Request σ)) :
    Records Desk.watched Plan.watched Call.Harmless (fun _ _ => True)
      (b.planGroup p group)
      (b.watched.planGroup p.watched (group.1, group.2.map Request.watched)) := by
  have htype : ((group.2.map Request.watched).head?.map fun r => r.type)
      = group.2.head?.map fun r => r.type := by
    rw [List.head?_map, Option.map_map]
    rfl
  unfold planGroup
  dsimp only
  rw [htype, sourcesOf_watched]
  show Records _ _ _ _ (if _ then _ else _) (if Value.isAmong _ p.missing = true then _ else _)
  split
  · exact .pure trivial
  · refine .bind (b.records_mergeGroup group).outcome fun outcome _ _ => ?_
    cases outcome with
    | error fault =>
        exact .pure (f := Plan.watched) (a := p.recordError .merge fault.reason) trivial
    | ok merged =>
        refine .afterSilent (.given _) fun sources _ => ?_
        refine .afterSilent (.given _) fun distinct _ => ?_
        rw [Plan.record_watched]
        exact .pure trivial

/-- The plan before merging is the same, watched. -/
theorem checkedPlan_watched (b : Backend σ) (missing : List Value) (checks : Except Fault Verdict) :
    b.watched.checkedPlan missing checks = (b.checkedPlan missing checks).watched := by
  cases checks with
  | error fault => rfl
  | ok verdict =>
      simp only [checkedPlan, foldl_recordError]
      rfl

/-- Planning all requests makes no resource. -/
theorem records_planRequests (b : Backend σ) (requests : List (Request σ)) :
    Records Desk.watched Plan.watched Call.Harmless (fun _ _ => True)
      (b.planRequests requests) (b.watched.planRequests (requests.map Request.watched)) := by
  unfold planRequests planMerges
  rw [map_toRequirement_watched, groups_watched]
  refine .afterSilent (b.registry.silent_coverage _) fun coverage _ => ?_
  refine .afterSilent (b.silent_runValidators requests).outcome fun checks _ => ?_
  have hchecks : checks.map (fun v => v) = checks := congrFun Except.map_id checks
  rw [hchecks, checkedPlan_watched]
  have hmerges := Records.foldlM (e := fun g => (g.1, g.2.map Request.watched)) (f := Plan.watched)
    (fun p group (_ : group ∈ groups requests) => b.records_planGroup p group)
    (b.checkedPlan coverage.missing checks)
  refine .bind hmerges fun p _ _ => ?_
  have htotal : p.watched.total = p.total := List.length_map _
  rw [htotal]
  exact .afterSilent (.report _) fun _ _ => .pure trivial

/-- A plan does the same beside a list of calls, and no call that it puts
there makes a resource. -/
theorem records_plan (b : Backend σ) (settings : Except Fault Settings) :
    Records Desk.watched Plan.watched Call.Harmless (fun _ _ => True)
      (b.plan settings) (b.watched.plan settings) := by
  rw [plan_eq, plan_eq]
  have hcollected : Records Desk.watched (List.map Request.watched) Call.Harmless
      (fun _ _ => True) (b.requested settings) (b.watched.requested settings) :=
    .afterSilent (.given _) fun mark _ =>
      (b.records_collect mark).mono (fun _ hc => hc) fun _ _ _ _ _ _ => trivial
  refine .bind hcollected.outcome fun collected _ _ => ?_
  cases collected with
  | error fault => exact .pure trivial
  | ok requests => exact b.records_planRequests requests

/-- The calls that planning makes. -/
def planCalls (b : Backend σ) (settings : Except Fault Settings) (d : Desk σ) : List Call :=
  ((b.watched.plan settings).run (d.watched [])).2.memory.calls

/-- No call of a dry run makes a resource. -/
theorem harmless_planCalls (b : Backend σ) (settings : Except Fault Settings) (d : Desk σ) :
    ∀ c ∈ b.planCalls settings d, c.Harmless := by
  obtain ⟨added, hrun, hall, -⟩ := b.records_plan settings d []
  unfold planCalls
  rw [hrun]
  exact hall

end Backend

end Depot
