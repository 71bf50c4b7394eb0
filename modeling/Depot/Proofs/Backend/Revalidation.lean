/-
What happens to merged requests at the places that check them again. A
backend asks for a verdict on the result of each merge, and again before it
has a resource made; the provider asks once more when it makes one. All
three ask the same question, what the kind says about the configuration as
it is written; so where one answer is known to be valid, none of them
refuses.

For the built-in kinds it is known from the merge itself
(`merged_is_accepted`).
-/
import Depot.Backend.Initialization
import Depot.Proofs.Provider.Faithful
import Depot.Proofs.Provider.Merging

namespace Depot

variable {σ C : Type}

namespace Kind

variable {k : Kind σ C}

/-- The resource for a requirement whose configuration is read and has a
valid verdict. -/
def makeFor (k : Kind σ C) (r : Requirement) (config : C) (verdict : Verdict)
    (p : Provisioning) : SiteWork σ Resource := do
  SiteWork.report (verdict.warnings.map fun w => ⟨.warning, "provider_config_warning",
    [("provider_id", k.id), ("resource_key", .str r.resourceKey), ("warning", w)]⟩)
  let name ← SiteWork.ofExcept (p.naming.resourceName r.type p.backendId r.key)
  let resource ← SiteWork.rephrase
    (Fault.orPut fun fault => .provisioningFailure r.type r.key (.str fault.reason))
    (k.make name config p)
  SiteWork.report [⟨.debug, "resource_provisioned", [("provider_id", k.id),
    ("resource_key", .str r.resourceKey), ("name", .str name)]⟩]
  return resource

/-- Past its checks a provider hands out the resource that exists, or makes
one. -/
theorem provide_of_valid {r : Requirement} {config : C} {verdict : Verdict}
    (read : k.read r.config = .ok config) (accepts : k.validateMerged r = .ok verdict)
    (valid : verdict.valid = true) (p : Provisioning) :
    k.provide r p = match p.existing.lookup r.resourceKey with
      | some existing =>
          if existing.isNull then k.makeFor r config verdict p else pure existing
      | none => k.makeFor r config verdict p := by
  unfold provide
  rw [accepts, read]
  cases p.existing.lookup r.resourceKey with
  | none =>
      show (if (!verdict.valid) = true then _ else k.makeFor r config verdict p) = _
      rw [valid]
      rfl
  | some existing =>
      cases hnull : existing.isNull with
      | false => simp [hnull]
      | true =>
          simp only [hnull]
          show (if (!verdict.valid) = true then _ else k.makeFor r config verdict p) = _
          rw [valid]
          rfl

end Kind

namespace Backend

variable {b : Backend σ} {k : Kind σ C}

/-- A merge with a valid verdict is what becomes of its group, unless there
is no telling where a request came from. -/
theorem outcome_mergeGroup_of_valid {first second merged : Request σ} {rest : List (Request σ)}
    {d₀ d d' : Desk σ} (found : (b.registry.find first.toRequirement).run d₀ = (.ok k.provider, d))
    (merges : (k.provider.merge (first :: second :: rest)).run d = (.ok merged, d'))
    {verdict : Verdict} (accepts : k.validateMerged merged.toRequirement = .ok verdict)
    (valid : verdict.valid = true) (name : String) :
    ((b.mergeGroup (name, first :: second :: rest)).run d₀).1
      = (sourcesOf (first :: second :: rest)).map fun _ => merged := by
  have hverdict : (k.provider.validateMerged merged.toRequirement).run d' = (.ok verdict, d') := by
    show (k.validateMerged merged.toRequirement, d') = _
    rw [accepts]
  unfold mergeGroup
  dsimp only
  rw [run_bind_of_ok (Work.run_ofExcept _ _), run_bind_of_ok found, run_bind_of_ok merges,
    run_bind_of_ok hverdict, valid]
  cases hsources : sourcesOf (first :: second :: rest) with
  | error fault => rfl
  | ok sources => rfl

/-- Where the verdict is valid, what comes of a requirement is what comes of
making its resource. -/
theorem outcome_provisionOne_of_valid {r : Requirement} {s₀ s : Site σ}
    (found : (SiteWork.ofWork (b.registry.find r)).run s₀ = (.ok k.provider, s))
    {verdict : Verdict} (accepts : k.validateMerged r = .ok verdict)
    (valid : verdict.valid = true) (context : Provisioning) (staged : Resources) :
    ((b.provisionOne context staged r).run s₀).1
      = (((k.provide r { context with existing := staged }).run s).1.mapError
          (Fault.orPut fun fault => .provisioningFailure r.type r.key (.str fault.reason))).map
        fun resource => Table.put r.resourceKey resource staged := by
  have hverdict : (SiteWork.ofWork (k.provider.validateMerged r)).run s = (.ok verdict, s) := by
    rw [SiteWork.run_ofWork]
    show (k.validateMerged r, s) = _
    rw [accepts]
  unfold provisionOne
  rw [run_bind_of_ok found, run_bind_of_ok hverdict, valid]
  dsimp only
  rw [if_neg (by decide), run_bind, SiteWork.run_rephrase]
  have hprovide : (k.provider.provide r { context with existing := staged }).run s
      = (k.provide r { context with existing := staged }).run s := rfl
  rw [hprovide]
  rcases (k.provide r { context with existing := staged }).run s with ⟨fault | resource, s'⟩
  · rfl
  · rfl

-- ========================================================= main result

/-- What a built-in kind merges is never rejected. Of two or more requests
with whole priorities or none, a merge that succeeds has the type, the key
and the provenance of the first, the greatest priority, and a configuration
that reads as exactly what the configurations were merged to, with the
verdict of that. So a backend that merges a group gets on to the sources of
its requests, one that provisions the result gets on to the making of the
resource, and the provider hands out what exists already or makes it. -/
theorem merged_is_accepted {k : Kind σ C} (built : k.BuiltIn) {first second merged : Request σ}
    {rest : List (Request σ)} {d d' : Desk σ}
    (whole : ∀ r ∈ first :: second :: rest, r.priority = .null ∨ ∃ n, r.priority = .int n)
    (merges : (k.provider.merge (first :: second :: rest)).run d = (.ok merged, d')) :
    ∃ config verdict,
      k.Joins first ((first :: second :: rest).map Request.toRequirement) merged.toRequirement
        config verdict
      ∧ (∀ (b : Backend σ) (name : String) (d₀ : Desk σ),
        (b.registry.find first.toRequirement).run d₀ = (.ok k.provider, d) →
          ((b.mergeGroup (name, first :: second :: rest)).run d₀).1
            = (sourcesOf (first :: second :: rest)).map fun _ => merged)
      ∧ (∀ (b : Backend σ) (context : Provisioning) (staged : Resources) (s₀ s : Site σ),
        (SiteWork.ofWork (b.registry.find merged.toRequirement)).run s₀ = (.ok k.provider, s) →
          ((b.provisionOne context staged merged.toRequirement).run s₀).1
            = (((k.provide merged.toRequirement
                { context with existing := staged }).run s).1.mapError
                (Fault.orPut fun fault =>
                  .provisioningFailure merged.type merged.key (.str fault.reason))).map
              fun resource => Table.put merged.resourceKey resource staged)
      ∧ ∀ p : Provisioning,
        k.provide merged.toRequirement p = match p.existing.lookup merged.resourceKey with
          | some existing =>
              if existing.isNull then k.makeFor merged.toRequirement config verdict p
              else pure existing
          | none => k.makeFor merged.toRequirement config verdict p := by
  obtain ⟨config, verdict, joins⟩ := Kind.joins_of_mergeRequests built.read_write whole merges
  refine ⟨config, verdict, joins, ?_, ?_, ?_⟩
  · intro b name d₀ found
    exact outcome_mergeGroup_of_valid found merges joins.accepts joins.valid name
  · intro b context staged s₀ s found
    exact outcome_provisionOne_of_valid found joins.accepts joins.valid context staged
  · intro p
    exact Kind.provide_of_valid joins.read joins.accepts joins.valid p

/-- Databases with a container whose policy has nulls in it. -/
def databasesWithNulls : Value :=
  .list [.object [("name", .str "main"), ("containers", .list [.object [("name", .str "jobs"),
    ("partition_key", .str "/id"),
    ("indexing_policy", .object [("mode", .null), ("paths", .list [.null, .str "/*"])])]])]]

/-- A request for an account. -/
def accountRequest (config : Fields) (priority : Value) : Request Unit :=
  ⟨⟨.str "cosmos", .str "shared", config, priority, .absent⟩, []⟩

/-- Nulls inside a policy are kept by a merge, while fields that are not set
are not written. -/
theorem policy_with_nulls_is_merged :
    let first := accountRequest [("databases", databasesWithNulls)] .null
    let second := accountRequest [("public_network_access", .str "Disabled")] (.int 50)
    let merged := accountRequest
      [("public_network_access", .str "Disabled"), ("databases", databasesWithNulls)] (.int 50)
    (Cosmos.kind.provider.merge [first, second]).run ⟨(), []⟩ = (.ok merged, ⟨(), []⟩)
      ∧ ∃ verdict,
        (Cosmos.kind : Kind Unit Cosmos.Account).validateMerged merged.toRequirement = .ok verdict
          ∧ verdict.valid = true := by
  intro first second merged
  have merges : (Cosmos.kind.provider.merge [first, second]).run ⟨(), []⟩
      = (.ok merged, ⟨(), []⟩) := rfl
  have whole : ∀ r ∈ [first, second], r.priority = .null ∨ ∃ n, r.priority = .int n := by
    simp [first, second, accountRequest]
  obtain ⟨config, verdict, joins, -⟩ := merged_is_accepted .cosmos whole merges
  exact ⟨merges, verdict, joins.accepts, joins.valid⟩

end Backend

end Depot
