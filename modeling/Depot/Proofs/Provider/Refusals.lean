/-
How a merge of requests ends if it does not succeed. A group may be refused:
its configurations cannot be read, do not go together or come to one that
cannot be used, or there is too much of something. A caller can go by that,
so a merge should end in no other fault.

Every fault of a merge is followed to where it comes from. The kinds of
resources share all steps but the merge of configurations itself
(`mergeRequests_error`). With accounts this ends only in clashes and in
tables that are too full (`Cosmos.isRefusal_of_merge`,
`Storage.isRefusal_of_merge`), and so it does with apps, but for their
versions (`Functions.merge_error`): as soon as two of them are set they are
read as numbers, and a part of digits that is no number, or is too long for
one, is a fault of a plain value. It comes before the check of the merged app,
to which a version that is set alone is left, and which would have refused
most of these (`unreadable_version_is_no_refusal`).
-/
import Depot.Proofs.Functions.Variables
import Depot.Proofs.Functions.Version
import Depot.Proofs.Provider.Group
import Depot.Proofs.Provider.InSteps
import Depot.Provider.Registry

namespace Depot

variable {σ : Type} {fault : Fault}

-- ============================================================ the steps

/-- A merge of proper requests is refused or ends in the merge of their
configurations. -/
theorem Kind.mergeRequests_error {C : Type} {m : Model C} {requests : List (Request σ)}
    {d d' : Desk σ}
    (made : ∀ r ∈ requests, Requirement.make r.type r.key (.object r.config) r.priority r.provenance
      = .ok r.toRequirement)
    (whole : ∀ r ∈ requests, r.priority = .null ∨ ∃ n, r.priority = .int n)
    (h : ((Kind.ofModel m).mergeRequests requests).run d = (.error fault, d')) :
    fault.IsRefusal ∨ ∃ first rest,
      (requests.map Request.toRequirement).mapM m.readForMerge = .ok (first :: rest)
        ∧ m.merge (first :: rest) = .error fault := by
  rcases requests with _ | ⟨first, _ | ⟨second, rest⟩⟩
  · cases h
    exact .inl (Fault.isRefusal_merge _ _ _)
  · cases h
  · rw [run_mergeRequests, Prod.mk.injEq] at h
    obtain ⟨htype, hkey, -⟩ := Requirement.make_ok_iff.1 (made first List.mem_cons_self)
    rcases Model.join_error h.1 with hrefused | ⟨configs, hread, -, hmerge⟩ | hpriority | hno | hno
    · exact .inl hrefused
    · obtain ⟨config, hconfig, -⟩ := mem_of_mapM_ok hread List.mem_cons_self
      obtain ⟨config, more, rfl⟩ := List.exists_cons_of_ne_nil (List.ne_nil_of_mem hconfig)
      exact .inr ⟨config, more, hread, hmerge⟩
    · -- whole numbers have a greatest one
      have hwhole : ∀ r ∈ (first :: second :: rest).map Request.toRequirement,
          r.priority = .null ∨ ∃ n, r.priority = .int n := List.forall_mem_map.2 whole
      obtain ⟨priorities, hpriorities⟩ := Requirement.exists_priorities hwhole
      rw [hpriorities] at hpriority
      cases priorities with
      | nil => cases hpriorities
      | cons n ns => cases (Value.greatest_ints n ns).symm.trans hpriority
    · cases htype.symm.trans hno
    · cases hkey.symm.trans hno

-- ============================================================= accounts

namespace Cosmos

/-- Databases fail to merge by a refusal. -/
theorem Database.isRefusal_of_merge {old new : Database}
    (h : Database.merge old new = .error fault) : fault.IsRefusal := by
  rcases mergeContainers_error (Database.merge_error h) with hfails | ⟨merged, -, -, rfl⟩
  · obtain ⟨-, new, -, -, -, -, old, -, -, hclash⟩ := mergeAll_error hfails
    obtain ⟨-, rfl⟩ := Container.merge_error hclash
    exact Fault.isRefusal_incompatibleConfigs _ _ _
  · exact Fault.isRefusal_limitExceeded _ _ _

/-- Accounts for documents fail to merge by a refusal. -/
theorem isRefusal_of_merge {base : Account} {rest : List Account}
    (h : merge (base :: rest) = .error fault) : fault.IsRefusal := by
  rw [merge_eq, mergeDatabases_eq] at h
  rcases bind_eq_error.1 h with hdatabases | ⟨databases, -, h⟩
  · split at hdatabases
    · cases hdatabases
    · rcases bind_eq_error.1 hdatabases with hfails | ⟨merged, -, hcount⟩
      · obtain ⟨-, new, -, -, -, -, old, -, -, hclash⟩ := mergeAll_error hfails
        exact Database.isRefusal_of_merge hclash
      · split at hcount
        · cases hcount
          exact Fault.isRefusal_limitExceeded _ _ _
        · cases hcount
  · cases h

end Cosmos

namespace Storage

/-- Accounts for files fail to merge by a refusal. -/
theorem isRefusal_of_merge {base : Account} {rest : List Account}
    (h : merge (base :: rest) = .error fault) : fault.IsRefusal := by
  rw [merge_eq, mergeContainers_eq, mergeAll_eq] at h
  rcases bind_eq_error.1 h with hcount | ⟨containers, -, h⟩
  · rcases bind_eq_error.1 hcount with hnone | ⟨merged, -, hcount⟩
    · cases hnone
    · split at hcount
      · cases hcount
        exact Fault.isRefusal_limitExceeded _ _ _
      · cases hcount
  · cases h

end Storage

-- ================================================================= apps

namespace Functions

/-- Several versions are set, and one of them is not readable. -/
def Unreadable (apps : List App) : Prop :=
  1 < (versionsOf apps).length ∧ ∃ v ∈ versionsOf apps, ¬ IsReadable v

/-- Versions fail only where one cannot be read, with a fault about a value. -/
theorem versionOfAll_error {first : App} {apps : List App}
    (h : versionOfAll first apps = .error fault) :
    Unreadable apps ∧ ∃ text, fault = .badValue text := by
  unfold versionOfAll at h
  split at h
  · next hseveral =>
      have hsome : versionsOf apps ≠ [] := List.ne_nil_of_length_pos (by omega)
      cases hbest : highestVersion (versionsOf apps) with
      | ok best =>
          rw [hbest] at h
          cases h
      | error why =>
          rw [hbest] at h
          cases h
          obtain ⟨v, hv, hunreadable, htext⟩ := highestVersion_error hsome hbest
          exact ⟨⟨hseveral, v, hv, hunreadable⟩, htext⟩
  · cases h

/-- There is a highest of any tiers. -/
theorem skuOfAll_ne_error (apps : List App) : skuOfAll apps ≠ .error fault := by
  unfold skuOfAll
  cases apps.filterMap App.sku with
  | nil => nofun
  | cons sku skus => nofun

/-- Apps cannot be merged if they are refused for their variables, or for a
version that is not readable. -/
theorem merge_error {first : App} {rest : List App} (h : merge (first :: rest) = .error fault) :
    fault.IsRefusal ∨ Unreadable (first :: rest) ∧ ∃ text, fault = .badValue text := by
  rw [merge_eq] at h
  rcases bind_eq_error.1 h with hversion | ⟨version, -, h⟩
  · exact .inr (versionOfAll_error hversion)
  · rcases bind_eq_error.1 h with hsku | ⟨sku, -, h⟩
    · exact absurd hsku (skuOfAll_ne_error _)
    · rcases bind_eq_error.1 h with hvariables | ⟨environment, -, h⟩
      · rcases mergeVariables_cases (first :: rest) with
          ⟨x, -, y, -, -, -, hclash⟩ | ⟨-, -, hfull⟩ | ⟨-, -, environment, hok, -⟩
        · cases hclash.symm.trans hvariables
          exact .inl (.inl (kind?_conflict _ _ _))
        · cases hfull.symm.trans hvariables
          exact .inl (.inr (kind?_overfull _))
        · cases hok.symm.trans hvariables
      · cases h

end Functions

-- ============================================================ all kinds

/-- A merge of proper requests with whole priorities at a built-in provider
ends in a refusal if it does not succeed. Only apps are the exception: where
several set a version and one of these is not readable, the merge ends in a
fault of a plain value. -/
theorem merges_end_in_refusals {p : Provider σ} (hp : p ∈ Provider.builtIn)
    {requests : List (Request σ)} {d d' : Desk σ}
    (made : ∀ r ∈ requests, Requirement.make r.type r.key (.object r.config) r.priority r.provenance
      = .ok r.toRequirement)
    (whole : ∀ r ∈ requests, r.priority = .null ∨ ∃ n, r.priority = .int n)
    (h : (p.merge requests).run d = (.error fault, d')) :
    fault.IsRefusal
    ∨ p = Functions.kind.provider ∧ (∃ text, fault = .badValue text)
      ∧ ∃ apps,
        (requests.map Request.toRequirement).mapM Functions.model.readForMerge = .ok apps
        ∧ Functions.Unreadable apps := by
  simp only [Provider.builtIn, List.mem_cons, List.not_mem_nil, or_false] at hp
  rcases hp with rfl | rfl | rfl
  · rcases Kind.mergeRequests_error made whole h with hrefused | ⟨first, rest, -, hmerge⟩
    · exact .inl hrefused
    · exact .inl (Cosmos.isRefusal_of_merge hmerge)
  · rcases Kind.mergeRequests_error made whole h with hrefused | ⟨first, rest, hread, hmerge⟩
    · exact .inl hrefused
    · exact (Functions.merge_error hmerge).imp_right fun ⟨hversions, htext⟩ =>
        ⟨rfl, htext, first :: rest, hread, hversions⟩
  · rcases Kind.mergeRequests_error made whole h with hrefused | ⟨first, rest, -, hmerge⟩
    · exact .inl hrefused
    · exact .inl (Storage.isRefusal_of_merge hmerge)

/-- A request for an app of a runtime and a version. -/
def appRequest (runtime version : String) : Request Unit :=
  ⟨⟨.str "functions", .str "api", [("runtime", .str runtime), ("version", .str version),
    ("plan", .str "basic"), ("storage_account", .str "files")], .null, .absent⟩, []⟩

/-- Apps of different runtimes are refused. -/
theorem runtimes_are_refused_together :
    ∃ fault, (Functions.kind.provider.merge [appRequest "node" "18", appRequest "python" "3"]).run
        ⟨(), []⟩ = (.error fault, ⟨(), []⟩)
      ∧ fault.IsRefusal := by
  have hmerge : (Functions.kind.provider.merge
      [appRequest "node" "18", appRequest "python" "3"]).run ⟨(), []⟩ = (.error _, ⟨(), []⟩) := rfl
  have hmade : ∀ r ∈ [appRequest "node" "18", appRequest "python" "3"],
      Requirement.make r.type r.key (.object r.config) r.priority r.provenance
        = .ok r.toRequirement := List.forall_mem_cons.2 ⟨rfl, List.forall_mem_singleton.2 rfl⟩
  have hwhole : ∀ r ∈ [appRequest "node" "18", appRequest "python" "3"],
      r.priority = .null ∨ ∃ n, r.priority = .int n :=
    List.forall_mem_cons.2 ⟨.inl rfl, List.forall_mem_singleton.2 (.inl rfl)⟩
  have hcomes : Functions.kind.provider ∈ (Provider.builtIn : List (Provider Unit)) := by
    simp [Provider.builtIn]
  rcases merges_end_in_refusals hcomes hmade hwhole hmerge with hrefused | ⟨-, ⟨text, htext⟩, -⟩
  · exact ⟨_, hmerge, hrefused⟩
  · cases htext

/-- A superscript two is a digit and no number. Alone it is refused by the
check; set twice it ends the merge before that. -/
theorem unreadable_version_is_no_refusal :
    (∃ fault, (Functions.kind.provider.merge [appRequest "node" "²", appRequest "node" "²"]).run
        ⟨(), []⟩ = (.error fault, ⟨(), []⟩)
      ∧ fault.typeName = "ValueError" ∧ fault.kind? = none)
    ∧ ∀ app, Functions.model.readForMerge (appRequest "node" "²").toRequirement = .ok app →
      (Functions.model.check app).valid = false := by
  refine ⟨⟨_, rfl, rfl, rfl⟩, fun app happ => ?_⟩
  cases happ
  rfl

end Depot
