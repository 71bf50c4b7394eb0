/-
What is recorded before anything is provisioned: one call of each factory
while requirements are collected, and one call of a provider for each
group that has to be merged. Looking for providers and asking validators
records nothing. No other call can be recorded, whatever the outcome.
-/
import Depot.Proofs.Requirement.Grouping
import Depot.Proofs.Value.Keyed
import Depot.Proofs.Watching.Records

namespace Depot

variable {σ : Type}

-- =============================================================== silent

namespace Registry

/-- A watched registry has the watched providers of a type. -/
theorem forType_watched (reg : Registry σ) (type : Value) :
    reg.watched.forType type = (reg.forType type).map (List.map Provider.watched) := by
  unfold forType watched
  cases reg.index.find? type with
  | error fault => rfl
  | ok ids =>
      show Except.ok _ = Except.ok _
      rw [List.map_filterMap]
      congr 1
      refine List.filterMap_congr fun id _ => ?_
      exact Keyed.get?_map Provider.watched reg.providers id

/-- Asking providers in turn makes no call. -/
theorem silent_firstCapable (r : Requirement) (ps : List (Provider σ)) :
    Silent Desk.watched (Option.map Provider.watched) (firstCapable r ps)
      (firstCapable r (ps.map Provider.watched)) := by
  induction ps with
  | nil => exact .pure none
  | cons p ps ih =>
      refine .bind (Records.watched (p.canProvide r)) fun answer => ?_
      cases answer with
      | true => exact .pure (some p)
      | false => exact ih

/-- A search for a provider makes no call. -/
theorem silent_find? (reg : Registry σ) (r : Requirement) :
    Silent Desk.watched (Option.map Provider.watched) (reg.find? r) (reg.watched.find? r) := by
  refine .bind (.ofExcept (reg.forType_watched r.type)) fun ps => ?_
  exact silent_firstCapable r ps

/-- Looking for a provider records nothing. -/
theorem silent_find (reg : Registry σ) (r : Requirement) :
    Silent Desk.watched Provider.watched (reg.find r) (reg.watched.find r) := by
  refine .bind (reg.silent_find? r) fun found => ?_
  cases found with
  | none => exact .throw _
  | some p => exact .pure p

/-- Listing the types that nobody provides makes no call. -/
theorem silent_missingTypes (reg : Registry σ) (missing : List Value) (rs : List Requirement) :
    Silent Desk.watched (fun types => types) (reg.missingTypes missing rs)
      (reg.watched.missingTypes missing rs) := by
  induction rs generalizing missing with
  | nil => exact .pure missing
  | cons r rs ih =>
      refine .bind (reg.silent_find? r) fun found => ?_
      cases found with
      | none => exact ih _
      | some p => exact ih _

/-- The coverage as a whole makes no call. -/
theorem silent_coverage (reg : Registry σ) (rs : List Requirement) :
    Silent Desk.watched (fun c => c) (reg.coverage rs) (reg.watched.coverage rs) :=
  .bind (reg.silent_missingTypes [] rs) fun _ => .pure _

end Registry

namespace Backend

/-- Asking the validators of one request makes no call. -/
theorem silent_askValidators (surroundings : Surroundings) (r : Request σ) :
    Silent Desk.watched (fun found => found) (askValidators surroundings r)
      (askValidators surroundings r.watched) := by
  refine .bind (f := fun found => found) ?_ fun found => .pure _
  refine .mapM (fun v => ?_) r.validators
  exact .bind (Records.watched (v.validate r.toRequirement surroundings)) fun _ => .pure _

theorem map_toRequirement_watched (requests : List (Request σ)) :
    (requests.map Request.watched).map Request.toRequirement
      = requests.map Request.toRequirement := by
  rw [List.map_map]
  rfl

/-- Running all validators makes no call. -/
theorem silent_runValidators (b : Backend σ) (requests : List (Request σ)) :
    Silent Desk.watched (fun v => v) (b.runValidators requests)
      (b.watched.runValidators (requests.map Request.watched)) := by
  unfold runValidators
  rw [map_toRequirement_watched]
  refine .bind (f := fun found => found) ?_ fun found => .pure _
  exact .mapM (fun r => silent_askValidators _ r) requests

/-- Checking the requests records nothing. -/
theorem silent_checkRequests (b : Backend σ) (requests : List (Request σ)) :
    Silent Desk.watched (fun u => u) (b.checkRequests requests)
      (b.watched.checkRequests (requests.map Request.watched)) := by
  unfold checkRequests
  rw [map_toRequirement_watched]
  refine .bind (b.registry.silent_coverage _) fun coverage => ?_
  cases coverage.valid with
  | false =>
      exact .bind (.given _) fun list => .throw _
  | true =>
      refine .bind (b.silent_runValidators requests) fun verdict => ?_
      exact .bind (Records.report _) fun _ => .given _

end Backend

-- ========================================================== collecting

/-- The calls that make no resource. -/
def Call.Harmless (c : Call) : Prop := ¬ c.Provides

/-- A source may be added before or after watching. -/
theorem Request.withSource_watched (id : Value) (r : Request σ) :
    r.watched.withSource id = (r.withSource id).map Request.watched := by
  unfold Request.withSource
  show (r.toRequirement.withSource id >>= _) = _
  cases r.toRequirement.withSource id with
  | error fault => rfl
  | ok r' => rfl

/-- What is declared may be made a request before or after watching. -/
theorem Declared.toRequest_watched (declared : Declared σ) :
    declared.watched.toRequest = declared.toRequest.map Request.watched := by
  cases declared with
  | request r => rfl
  | plain v =>
      show (Requirement.ofValue v >>= _) = (Requirement.ofValue v >>= _ : Except Fault _).map _
      cases Requirement.ofValue v with
      | error fault => rfl
      | ok r => rfl

namespace Definition

/-- Making a component is one call of its factory. -/
theorem records_create (d : Definition σ) (resources : Supply) :
    Records Site.watched Component.watched Call.Harmless
      (fun _ added => added = [.create d.id resources])
      (d.create resources) (d.watched.create resources) := by
  have hfactory : Records Site.watched Product.watched Call.Harmless
      (fun _ added => added = [.create d.id resources])
      (d.factory d.id d.config resources) (d.watched.factory d.id d.config resources) := by
    refine .noteAt (fun h => h) (.ofSilent ?_ fun _ _ _ _ => rfl)
    exact (Records.watchedAt _).result Product.watched
  refine .bind hfactory fun made first hfirst => ?_
  cases made with
  | component c =>
      refine .pure ?_
      rw [List.append_nil]
      exact hfirst
  | other type => exact .throw _

/-- Learning what a component requires is one call of its factory, without
resources. -/
theorem records_declared (d : Definition σ) :
    Records Site.watched (List.map Request.watched) Call.Harmless
      (fun _ added => added = [.create d.id (.resources [])])
      d.declared d.watched.declared := by
  refine .bind (d.records_create (.resources [])) fun c first hfirst => ?_
  have hdeclare : Silent Desk.watched (List.map Declared.watched) c.declare c.watched.declare :=
    (Records.watched c.declare).result (List.map Declared.watched)
  refine .afterSilent (.ofWork hdeclare) fun declared _ => ?_
  refine .ofExceptAt (mapM_map_of_map Declared.toRequest_watched declared) fun requests _ => ?_
  rw [hfirst, List.append_nil]

end Definition

namespace Backend

/-- Collecting from a component is one call of its factory. -/
theorem records_collectOne (b : Backend σ) (mark : BackendMark) (arena : Scope)
    (entry : Value × Definition σ) :
    Records Desk.watched (fun r => (r.1.map Request.watched, r.2)) Call.Harmless
      (fun _ added => added = [.create entry.2.id (.resources [])])
      (b.collectOne mark arena entry)
      (b.watched.collectOne mark arena (entry.1, entry.2.watched)) := by
  refine .afterSilent (.given _) fun arena' _ => ?_
  refine .bind (.rephrase _ (.inScope _ entry.2.records_declared)) fun declared first hfirst => ?_
  refine .afterSilent (.ofExcept (mapM_map_of_map (Request.withSource_watched entry.1) declared))
    fun requests _ => ?_
  rw [List.length_map]
  refine .afterSilent (.report _) fun _ _ => ?_
  refine .pure (f := fun r => (r.1.map Request.watched, r.2)) (a := (requests, arena')) ?_
  rw [List.append_nil]
  exact hfirst

/-- Collecting makes each component once, in order, and calls nothing else. -/
theorem records_collectFrom (b : Backend σ) (mark : BackendMark) (arena : Scope)
    (entries : Keyed (Definition σ)) :
    Records Desk.watched (List.map Request.watched) Call.Harmless
      (fun _ added => added = entries.map fun e => .create e.2.id (.resources []))
      (b.collectFrom mark arena entries)
      (b.watched.collectFrom mark arena (entries.map fun e => (e.1, e.2.watched))) := by
  induction entries generalizing arena with
  | nil => exact .pure rfl
  | cons entry entries ih =>
      refine .bind (b.records_collectOne mark arena entry) fun one first hfirst => ?_
      refine .bind (ih one.2) fun rest second hsecond => ?_
      rw [← List.map_append]
      refine .pure (f := List.map Request.watched) ?_
      rw [hfirst, hsecond, List.append_nil]
      rfl

/-- Collecting is one call of each factory, in the order of definition,
without resources. -/
theorem records_collect (b : Backend σ) (mark : BackendMark) :
    Records Desk.watched (List.map Request.watched) Call.Harmless
      (fun _ added => added = b.definitions.map fun e => .create e.2.id (.resources []))
      (b.collect mark) (b.watched.collect mark) := by
  refine .afterSilent (.given _) fun arena _ => ?_
  refine .bind (b.records_collectFrom mark arena b.definitions) fun requests first hfirst => ?_
  rw [map_toRequirement_watched]
  refine .afterSilent (.given _) fun _ _ => .pure ?_
  rw [List.append_nil]
  exact hfirst

-- ============================================================= merging

/-- Watched requests are grouped as the plain ones are. -/
theorem groups_watched (requests : List (Request σ)) :
    groups (requests.map Request.watched)
      = (groups requests).map fun g => (g.1, g.2.map Request.watched) := by
  unfold groups
  rw [Requirement.groupByResourceKey_eq, Requirement.groupByResourceKey_eq, List.map_map,
    List.map_map]
  refine List.map_congr_left fun key _ => ?_
  show (key, Requirement.sharing _ key (requests.map Request.watched)) = _
  unfold Requirement.sharing
  rw [List.filter_map]
  rfl

/-- Watched requests have the sources of the plain ones. -/
theorem sourcesOf_watched (requests : List (Request σ)) :
    sourcesOf (requests.map Request.watched) = sourcesOf requests := by
  unfold sourcesOf
  rw [mapM_map_of_map (f := fun r : Request σ => r.provenance.source) (g := fun v => v)]
  · cases requests.mapM fun r : Request σ => r.provenance.source with
    | error fault => rfl
    | ok sources => exact congrArg Except.ok (List.map_id _)
  · intro r
    show r.provenance.source = _
    cases r.provenance.source with
    | error fault => rfl
    | ok v => rfl

/-- How a group becomes one request: on its own it stays as it is, without
a call; several are merged by one call of the provider that was found for
the first. -/
inductive Merges (b : Backend σ) (group : String × List (Request σ)) :
    Request σ → List Call → Prop where
  | single {only} (alone : group.2 = [only]) : Merges b group only []
  | several {first second rest p d₀ d₁ d d' merged} (members : group.2 = first :: second :: rest)
      (found : (b.registry.find first.toRequirement).run d₀ = (.ok p, d₁))
      (merges : (p.merge group.2).run d = (.ok merged, d')) :
      Merges b group merged [.merge p.id (group.2.map Request.toRequirement)]

/-- Merging is one call, for what was merged. -/
theorem records_merge (p : Provider σ) (requests : List (Request σ)) :
    Records Desk.watched Request.watched Call.Harmless
      (fun merged added => added = [.merge p.id (requests.map Request.toRequirement)]
        ∧ ∃ d d', (p.merge requests).run d = (.ok merged, d'))
      (p.merge requests) (p.watched.merge (requests.map Request.watched)) := by
  have hbare : (requests.map Request.watched).map Request.bare = requests := by
    rw [List.map_map]
    exact (List.map_congr_left fun r _ => r.bare_watched).trans (List.map_id _)
  unfold Provider.watched
  simp only
  rw [hbare, Backend.map_toRequirement_watched]
  refine .note (fun h => h) (.ofSilent ?_ fun d d' merged h => ⟨rfl, d, d', h⟩)
  exact (Records.watched _).result Request.watched

/-- A group is merged by the calls it takes. -/
theorem records_mergeGroup (b : Backend σ) (group : String × List (Request σ)) :
    Records Desk.watched Request.watched Call.Harmless (Merges b group)
      (b.mergeGroup group) (b.watched.mergeGroup (group.1, group.2.map Request.watched)) := by
  obtain ⟨key, requests⟩ := group
  match requests with
  | [] => exact .throw _
  | [only] => exact .pure (.single rfl)
  | first :: second :: rest =>
      refine .afterSilent (Silent.ofExcept (f := Request.watched) rfl) fun first' hfirst => ?_
      obtain ⟨_, _, hfirst⟩ := hfirst
      cases hfirst
      refine .afterSilent (b.registry.silent_find first.toRequirement) fun p hfound => ?_
      obtain ⟨d₀, d₁, hfound⟩ := hfound
      refine .bind (records_merge p (first :: second :: rest)) fun merged added hmerged => ?_
      obtain ⟨hadded, d, d', hmerged⟩ := hmerged
      refine .afterSilent (Records.watched (p.validateMerged merged.toRequirement))
        fun verdict _ => ?_
      cases verdict.valid with
      | false =>
          have hconfigs : (first.watched :: (second :: rest).map Request.watched).map
              (fun r => Value.object r.config)
                = (first :: second :: rest).map fun r => Value.object r.config := by
            rw [← List.map_cons, List.map_map]
            rfl
          rw [hconfigs]
          exact .afterSilent (.given _) fun list _ => .throw _
      | true =>
          have hsources : sourcesOf (first.watched :: (second :: rest).map Request.watched)
              = sourcesOf (first :: second :: rest) :=
            sourcesOf_watched (first :: second :: rest)
          rw [hsources]
          refine .afterSilent (.given _) fun sources _ => ?_
          refine .afterSilent (.report _) fun _ _ => .pure ?_
          rw [List.append_nil, hadded]
          exact .several rfl hfound hmerged

/-- Merging is one call for each group with several members. -/
theorem records_mergeGroups (b : Backend σ) (requests : List (Request σ)) :
    Records Desk.watched (List.map Request.watched) Call.Harmless
      (Each (Merges b) (groups requests))
      (b.mergeGroups requests) (b.watched.mergeGroups (requests.map Request.watched)) := by
  unfold mergeGroups
  rw [groups_watched]
  exact .mapM fun group _ => b.records_mergeGroup group

end Backend

end Depot
