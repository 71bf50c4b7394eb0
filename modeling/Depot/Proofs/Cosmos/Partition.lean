/-
The partition keys of containers. A container cannot have two, so accounts
that are merged have to agree on the partition key of a container that
several of them ask for. A request that comes to a container is held
against it (`Container.merge_ok`), and what holds of one container is
carried through the tables of containers and of databases by name. So
when a merge returns, a container that was asked for is there with its
partition key; and when two partition keys were asked for, the merge ends
with a fault that names such a container, unless some database had become
too full before (`partition_keys_are_kept`).

Containers that the first request for a database lists are the exception:
they never come to a container, so they are not held against each other.
If they have one name and different partition keys, and the database is
asked for again, all but the last are dropped
(`clash_within_first_request_is_dropped`).
-/
import Depot.Proofs.Cosmos.Merging
import Mathlib.Data.List.Perm.Subperm

namespace Depot.Cosmos

-- ========================================================== containers

/-- There is a container of some name among others, and all of that name
have one partition key. -/
def Keyed (containers : List Container) (container key : String) : Prop :=
  Under Container.name containers container fun c => c.partitionKey = key

instance (containers : List Container) (container key : String) :
    Decidable (Keyed containers container key) :=
  inferInstanceAs (Decidable (Under Container.name containers container _))

variable {existing incoming merged : List Container} {container key : String}

/-- A container that is there stays and keeps its partition key. -/
theorem Keyed.mergeContainers (h : Keyed existing container key)
    (hok : mergeContainers existing incoming = .ok merged) : Keyed merged container key := by
  have hthere : Under Container.name (lastOfEachName existing) container
      fun c => c.partitionKey = key := by
    refine ⟨?_, fun c hc => h.all c (mem_of_mem_lastOfEachName hc)⟩
    obtain ⟨c, hc, hname⟩ := h.there
    have hin : container ∈ (lastOfEachName existing).map Container.name := by
      rw [names_lastOfEachName, List.mem_eraseDups, ← hname]
      exact List.mem_map_of_mem hc
    exact List.mem_map.1 hin
  exact hthere.mergeAll Container.keepsName
    (fun new _ old m hold hm => (Container.merge_ok hm).2.1.trans hold) (mergeContainers_ok hok).1

/-- A container that comes in has the partition key with which it came. -/
theorem keyed_mergeContainers {c : Container} (hc : c ∈ incoming)
    (hok : mergeContainers existing incoming = .ok merged) : Keyed merged c.name c.partitionKey := by
  obtain ⟨before, after, rfl⟩ := List.append_of_mem hc
  exact under_mergeAll Container.keepsName (nodup_lastOfEachName existing) (fun _ _ => rfl)
    (fun old m hm => (Container.merge_ok hm).2.2)
    (fun x _ old m hold hm => (Container.merge_ok hm).2.1.trans hold) (mergeContainers_ok hok).1

/-- Containers list one of some name with some partition key. -/
def Lists (containers : List Container) (container key : String) : Prop :=
  ∃ c ∈ containers, c.name = container ∧ c.partitionKey = key

instance (containers : List Container) (container key : String) :
    Decidable (Lists containers container key) :=
  inferInstanceAs (Decidable (∃ c ∈ containers, _ ∧ _))

theorem Lists.mono {more : List Container} (h : Lists existing container key)
    (hsub : existing ⊆ more) : Lists more container key := by
  obtain ⟨c, hc, hboth⟩ := h
  exact ⟨c, hsub hc, hboth⟩

/-- What is merged lists nothing new. -/
theorem lists_mergeAll (hmerged : mergeAll Container.name Container.merge incoming
      (lastOfEachName existing) = .ok merged) :
    ∀ c ∈ merged, Lists (existing ++ incoming) c.name c.partitionKey := by
  refine forall_mergeAll (fun c hc => ?_) (fun c hc => ?_) (fun old new m _ hnew _ hm => ?_) hmerged
  · exact ⟨c, List.mem_append_left _ (mem_of_mem_lastOfEachName hc), rfl, rfl⟩
  · exact ⟨c, List.mem_append_right _ hc, rfl, rfl⟩
  · obtain ⟨hname, -, hkey⟩ := Container.merge_ok hm
    rwa [hname, hkey]

/-- Containers that cannot be merged clash in the partition key of one, or
are too many. -/
theorem mergeContainers_error_cases {fault : Fault}
    (h : mergeContainers existing incoming = .error fault) :
    (∃ container key other, key ≠ other ∧ Lists (existing ++ incoming) container key
      ∧ Lists (existing ++ incoming) container other ∧ fault = clash container key other)
    ∨ ∃ names : List String, names.Nodup ∧ maxContainers < names.length
      ∧ (∀ container ∈ names, ∃ key, Lists (existing ++ incoming) container key)
      ∧ fault = overfull names.length := by
  rcases mergeContainers_error h with hfails | ⟨merged, hmerged, hfull, rfl⟩
  · obtain ⟨before, new, after, mid, rfl, hmid, old, hold, hname, hfails⟩ := mergeAll_error hfails
    obtain ⟨hne, rfl⟩ := Container.merge_error hfails
    have hlists := lists_mergeAll hmid old hold
    rw [hname] at hlists
    refine .inl ⟨new.name, old.partitionKey, new.partitionKey, hne, hlists.mono ?_, ?_, rfl⟩
    · intro c hc
      rcases List.mem_append.1 hc with hc | hc
      · simp [hc]
      · simp [hc]
    · exact ⟨new, by simp, rfl, rfl⟩
  · refine .inr ⟨merged.map Container.name, ?_, ?_, List.forall_mem_map.2 fun c hc => ?_, ?_⟩
    · rw [names_mergeAll Container.keepsName (nodup_lastOfEachName existing) hmerged]
      exact nodup_eraseDups _
    · rwa [List.length_map]
    · exact ⟨c.partitionKey, lists_mergeAll hmerged c hc⟩
    · rw [List.length_map]

-- =========================================================== databases

/-- A container that is asked for is there in the end, with the partition key
asked for. If it is in the first request for the database, it has to have
that partition key there. -/
theorem keyed_mergeAll {requests databases : List Database}
    (hok : mergeAll Database.name Database.merge requests [] = .ok databases) {d : Database}
    (hd : d ∈ requests) {c : Container} (hc : c ∈ d.containers)
    (hfirst : requests.find? (fun e => e.name = d.name) = some d →
      Keyed d.containers c.name c.partitionKey) :
    Under Database.name databases d.name fun e => Keyed e.containers c.name c.partitionKey := by
  obtain ⟨before, after, rfl⟩ := List.append_of_mem hd
  have hempty : (([] : List Database).map Database.name).Nodup := List.nodup_nil
  refine under_mergeAll Database.keepsName hempty (fun _ hout => hfirst ?_)
    (fun old m hm => keyed_mergeContainers hc (Database.merge_ok hm).2)
    (fun x _ old m hold hm => hold.mergeContainers (Database.merge_ok hm).2) hok
  have hnone : before.find? (fun e => e.name = d.name) = none := by
    refine List.find?_eq_none.2 fun e he hname => hout ?_
    rw [← of_decide_eq_true hname]
    exact List.mem_map_of_mem he
  rw [List.find?_append, hnone]
  simp

-- ============================================================ requests

/-- Databases that are asked for have a container with a partition key. -/
def Asks (requests : List Database) (database container key : String) : Prop :=
  ∃ d ∈ requests, d.name = database ∧ Lists d.containers container key

instance (requests : List Database) (database container key : String) :
    Decidable (Asks requests database container key) :=
  inferInstanceAs (Decidable (∃ d ∈ requests, _ ∧ Lists _ _ _))

/-- A container is asked for if it is under some partition key. -/
theorem mem_containersAsked {requests : List Database} {database container : String} :
    container ∈ containersAsked requests database ↔ ∃ key, Asks requests database container key := by
  constructor
  · intro h
    obtain ⟨d, hd, hin⟩ := List.mem_flatMap.1 (List.mem_eraseDups.1 h)
    obtain ⟨hmem, hname⟩ := List.mem_filter.1 hd
    obtain ⟨c, hc, hcontainer⟩ := List.mem_map.1 hin
    exact ⟨c.partitionKey, d, hmem, of_decide_eq_true hname, c, hc, hcontainer, rfl⟩
  · intro ⟨key, d, hd, hname, c, hc, hcontainer, _⟩
    refine List.mem_eraseDups.2 (List.mem_flatMap.2 ⟨d, ?_, ?_⟩)
    · exact List.mem_filter.2 ⟨hd, decide_eq_true hname⟩
    · rw [← hcontainer]
      exact List.mem_map_of_mem hc

/-- A fault names a container of which two partition keys are asked for. -/
def NamesClash (requests : List Database) (fault : Fault) : Prop :=
  ∃ database container key other, key ≠ other ∧ Asks requests database container key
    ∧ Asks requests database container other ∧ fault = clash container key other

/-- A fault is about a database of which more containers are asked for than
it can have. -/
def NamesOverfull (requests : List Database) (fault : Fault) : Prop :=
  ∃ database count, maxContainers < count
    ∧ count ≤ (containersAsked requests database).length ∧ fault = overfull count

/-- What is merged has nothing that was not asked for. -/
theorem asks_mergeAll {requests part databases : List Database} (hsub : part ⊆ requests)
    (hok : mergeAll Database.name Database.merge part [] = .ok databases) :
    ∀ d ∈ databases, ∀ c ∈ d.containers, Asks requests d.name c.name c.partitionKey := by
  refine forall_mergeAll (by simp) (fun d hd c hc => ⟨d, hsub hd, rfl, c, hc, rfl, rfl⟩)
    (fun old new m hold hnew hname hm c hc => ?_) hok
  obtain ⟨hkept, hcontainers⟩ := Database.merge_ok hm
  obtain ⟨x, hx, hcontainer, hkey⟩ := lists_mergeAll (mergeContainers_ok hcontainers).1 c hc
  rw [hkept, ← hcontainer, ← hkey]
  rcases List.mem_append.1 hx with hx | hx
  · rw [← hname]
    exact hold x hx
  · exact hnew x hx

/-- Databases that cannot be merged clash in the partition key of a
container, or one of them is too full. -/
theorem databases_error {requests : List Database} {fault : Fault}
    (h : mergeAll Database.name Database.merge requests [] = .error fault) :
    NamesClash requests fault ∨ NamesOverfull requests fault := by
  obtain ⟨before, new, after, mid, rfl, hmid, old, hold, hname, hfails⟩ := mergeAll_error h
  have hasked : ∀ container key, Lists (old.containers ++ new.containers) container key →
      Asks (before ++ new :: after) new.name container key := by
    intro container key ⟨c, hc, hcontainer, hkey⟩
    rcases List.mem_append.1 hc with hc | hc
    · rw [← hname, ← hcontainer, ← hkey]
      exact asks_mergeAll (List.subset_append_left before _) hmid old hold c hc
    · exact ⟨new, by simp, rfl, c, hc, hcontainer, hkey⟩
  rcases mergeContainers_error_cases (Database.merge_error hfails) with
    ⟨container, key, other, hne, hkey, hother, rfl⟩ | ⟨names, hnodup, hfull, hlists, rfl⟩
  · exact .inl ⟨new.name, container, key, other, hne, hasked _ _ hkey, hasked _ _ hother, rfl⟩
  · refine .inr ⟨new.name, names.length, hfull, ?_, rfl⟩
    refine (List.subperm_of_subset hnodup fun container hin => ?_).length_le
    obtain ⟨key, hkey⟩ := hlists container hin
    exact mem_containersAsked.2 ⟨key, hasked container key hkey⟩

-- ======================================================== whole merges

/-- The first request for a database does not ask for two partition keys of
one container. -/
def FirstAgrees (requests : List Database) (database container : String) : Prop :=
  ∀ first, requests.find? (fun d => d.name = database) = some first → ∀ key other,
    Lists first.containers container key → Lists first.containers container other → key = other

/-- What is asked for is there, if the first request for the database agrees
with itself. -/
theorem under_of_asks {requests databases : List Database} {database container key : String}
    (hagree : FirstAgrees requests database container)
    (hok : mergeAll Database.name Database.merge requests [] = .ok databases)
    (hasks : Asks requests database container key) :
    Under Database.name databases database fun d => Keyed d.containers container key := by
  obtain ⟨d, hd, rfl, c, hc, rfl, rfl⟩ := hasks
  refine keyed_mergeAll hok hd hc fun hfound => ⟨⟨c, hc, rfl⟩, fun x hx hname => ?_⟩
  exact hagree d hfound _ _ ⟨x, hx, hname, rfl⟩ ⟨c, hc, rfl, rfl⟩

/-- A container that accounts ask for is there when they are merged, with just
the partition key that is asked for; and if two are asked for, the merge
ends with a fault. This holds if the first request for the database does not
ask for two itself. -/
theorem partition_keys_are_kept {accounts : List Account} {database container : String}
    (hagree : FirstAgrees (requested accounts) database container) {key : String}
    (hasks : Asks (requested accounts) database container key) :
    (∀ merged, mergeDatabases accounts = .ok merged → ∃ databases, merged = some databases
      ∧ Under Database.name databases database fun d => Keyed d.containers container key)
    ∧ ∀ other, other ≠ key → Asks (requested accounts) database container other →
      ∃ fault, mergeDatabases accounts = .error fault
        ∧ (NamesClash (requested accounts) fault ∨ NamesOverfull (requested accounts) fault) := by
  constructor
  · intro merged hok
    have hunder := under_of_asks hagree (mergeDatabases_ok hok).1 hasks
    cases merged with
    | none =>
        obtain ⟨d, hd, -⟩ := hunder.there
        cases hd
    | some databases => exact ⟨databases, rfl, hunder⟩
  · intro other hne hother
    cases hmerged : mergeAll Database.name Database.merge (requested accounts) [] with
    | ok databases =>
        -- one container would have both partition keys
        obtain ⟨d, hd, hname, hkeyed⟩ := (under_of_asks hagree hmerged hasks).exists_mem
        have hkeyed' := (under_of_asks hagree hmerged hother).all d hd hname
        obtain ⟨c, hc, hcontainer, hkey⟩ := hkeyed.exists_mem
        exact absurd ((hkeyed'.all c hc hcontainer).symm.trans hkey) hne
    | error fault => exact ⟨fault, mergeDatabases_of_error hmerged, databases_error hmerged⟩

/-- An account that asks for containers of one database. -/
def appAccount (containers : List Container) : Account :=
  { databases := some [⟨"app", containers⟩] }

/-- Accounts that all ask for users by id, the first one twice. -/
def sharedUsers : List Account :=
  [{}, appAccount [⟨"users", "/id", none, some 60, none⟩, ⟨"users", "/id", none, none, none⟩],
    { databases := some [⟨"audit", [⟨"users", "/day", none, none, none⟩]⟩] },
    appAccount [⟨"orders", "/customer", none, none, none⟩, ⟨"users", "/id", none, none, none⟩]]

/-- An account that asks for users by tenant. -/
def tenantUsers : Account := appAccount [⟨"users", "/tenant", none, none, none⟩]

theorem shared_users_are_kept :
    (FirstAgrees (requested sharedUsers) "app" "users"
      ∧ Asks (requested sharedUsers) "app" "users" "/id"
      ∧ ∃ databases, mergeDatabases sharedUsers = .ok (some databases)
        ∧ Under Database.name databases "app" fun d => Keyed d.containers "users" "/id")
    ∧ ∃ fault, mergeDatabases (sharedUsers ++ [tenantUsers]) = .error fault
      ∧ NamesClash (requested (sharedUsers ++ [tenantUsers])) fault := by
  -- later accounts do not change what the first request is
  have hagree : ∀ later, FirstAgrees (requested (sharedUsers ++ later)) "app" "users" := by
    intro later first hfirst key other hkey hother
    cases hfirst
    simp only [Lists, List.mem_cons, List.not_mem_nil, or_false, exists_eq_or_imp,
      exists_eq_left, true_and, or_self] at hkey hother
    exact hkey.symm.trans hother
  have hshared : Asks (requested sharedUsers) "app" "users" "/id" := by decide
  have hdisputed : Asks (requested (sharedUsers ++ [tenantUsers])) "app" "users" "/id" := by decide
  constructor
  · obtain ⟨databases, hmerged, hunder⟩ := (partition_keys_are_kept (hagree []) hshared).1 _ rfl
    exact ⟨hagree [], hshared, databases, congrArg Except.ok hmerged, hunder⟩
  · obtain ⟨fault, hfault, hclash | ⟨_, _, _, _, hfull⟩⟩ :=
      (partition_keys_are_kept (hagree [tenantUsers]) hdisputed).2 "/tenant" (by decide) (by decide)
    · exact ⟨fault, hfault, hclash⟩
    · rw [hfull] at hfault
      cases hfault

/-- Users by id and by tenant in one request, and another request for the
database. -/
def unsettledUsers : List Account :=
  [appAccount [⟨"users", "/id", none, none, none⟩, ⟨"users", "/tenant", none, none, none⟩],
    appAccount []]

theorem clash_within_first_request_is_dropped :
    Asks (requested unsettledUsers) "app" "users" "/id"
    ∧ Asks (requested unsettledUsers) "app" "users" "/tenant"
    ∧ ∃ databases, mergeDatabases unsettledUsers = .ok (some databases)
      ∧ ¬ Under Database.name databases "app" fun d => Keyed d.containers "users" "/id" :=
  ⟨by decide, by decide, _, rfl, by decide⟩

end Depot.Cosmos
