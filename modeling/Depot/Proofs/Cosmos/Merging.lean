/-
What each function of a merge of Cosmos accounts does. A container that
comes to one of its name is merged into it, unless their partition keys
differ (`Container.merge_ok`, `Container.merge_error`). Containers are
merged by name into those that were there, of which the last of each name
counts (`mergeContainers_ok`), and a database into the one of its name by
its containers (`Database.merge_ok`). The databases of accounts are merged
in the order in which they are requested, and counted at the end
(`mergeDatabases_eq`).

Everything else about these merges follows from here and from the theory of
items merged by name.
-/
import Depot.Proofs.Cosmos.ByName

namespace Depot.Cosmos

-- ============================================================== faults

/-- The fault of a container with two partition keys. -/
def clash (container current new : String) : Fault :=
  let keys := s!"'{current}' vs '{new}'"
  .incompatibleConfigs (.str "cosmos")
    (.str s!"container '{container}' has conflicting partition keys: {keys}")

/-- The fault of a database with too many containers. -/
def overfull (count : Nat) : Fault :=
  .limitExceeded (.str "cosmos") (.int maxContainers) (.int count)

/-- The fault of an account with too many databases. -/
def overfullAccount (count : Nat) : Fault :=
  .limitExceeded (.str "cosmos") (.int maxDatabases) (.int count)

-- ======================================================= one container

/-- Requests for one container that can be merged have the partition key of
what they become. -/
theorem Container.merge_ok {old new m : Container} (h : Container.merge old new = .ok m) :
    m.name = new.name ∧ m.partitionKey = old.partitionKey ∧ m.partitionKey = new.partitionKey := by
  unfold Container.merge at h
  split at h
  · cases h
  · next hkeys =>
      cases h
      exact ⟨rfl, rfl, not_not.1 hkeys⟩

/-- Containers clash only about their partition keys. -/
theorem Container.merge_error {old new : Container} {fault : Fault}
    (h : Container.merge old new = .error fault) :
    old.partitionKey ≠ new.partitionKey
      ∧ fault = clash new.name old.partitionKey new.partitionKey := by
  unfold Container.merge at h
  split at h
  · next hkeys =>
      cases h
      exact ⟨hkeys, rfl⟩
  · cases h

theorem Container.keepsName : KeepsName Container.name Container.merge :=
  fun _ _ _ _ h => (Container.merge_ok h).1

-- ================================================== the last of a name

/-- One more container replaces the one of its name, or goes to the end. -/
theorem lastOfEachName_concat (cs : List Container) (c : Container) :
    lastOfEachName (cs ++ [c])
      = if (lastOfEachName cs).any (fun d => d.name = c.name) then
          (lastOfEachName cs).map fun d => if d.name = c.name then c else d
        else lastOfEachName cs ++ [c] := List.foldl_concat ..

/-- The names that are left are those that were there, once each. -/
theorem names_lastOfEachName (cs : List Container) :
    (lastOfEachName cs).map Container.name = (cs.map Container.name).eraseDups := by
  induction cs using List.reverseRecOn with
  | nil => rfl
  | append_singleton cs c ih =>
      have hany : (lastOfEachName cs).any (fun d => d.name = c.name) = true
          ↔ c.name ∈ cs.map Container.name := by
        rw [← List.mem_eraseDups, ← ih]
        simp
      rw [lastOfEachName_concat, List.map_append, List.map_singleton, eraseDups_concat]
      by_cases hin : c.name ∈ cs.map Container.name
      · rw [if_pos (hany.2 hin), if_pos hin, ← ih, List.map_map]
        refine List.map_congr_left fun d _ => ?_
        by_cases hname : d.name = c.name
        · simp [hname]
        · simp [hname]
      · rw [if_neg (mt hany.1 hin), if_neg hin, ← ih, List.map_append, List.map_singleton]

/-- Every container that is left was there. -/
theorem mem_of_mem_lastOfEachName {cs : List Container} {c : Container}
    (h : c ∈ lastOfEachName cs) : c ∈ cs := by
  induction cs using List.reverseRecOn with
  | nil => cases h
  | append_singleton cs d ih =>
      rw [lastOfEachName_concat] at h
      split at h
      · obtain ⟨e, he, hc⟩ := List.mem_map.1 h
        by_cases hname : e.name = d.name
        · rw [if_pos hname] at hc
          simp [hc]
        · rw [if_neg hname] at hc
          subst hc
          exact List.mem_append_left _ (ih he)
      · rcases List.mem_append.1 h with hold | hnew
        · exact List.mem_append_left _ (ih hold)
        · exact List.mem_append_right _ hnew

-- ========================================================== containers

variable {existing incoming merged : List Container}

/-- Merged containers went through the merge by name and fit the limit. -/
theorem mergeContainers_ok (h : mergeContainers existing incoming = .ok merged) :
    mergeAll Container.name Container.merge incoming (lastOfEachName existing) = .ok merged
      ∧ merged.length ≤ maxContainers := by
  obtain ⟨all, hall, h⟩ := bind_eq_ok.1 h
  split at h
  · cases h
  · next hfits =>
      cases h
      exact ⟨hall, Nat.not_lt.1 hfits⟩

/-- Containers are refused for a clash, or because they are too many. -/
theorem mergeContainers_error {fault : Fault}
    (h : mergeContainers existing incoming = .error fault) :
    mergeAll Container.name Container.merge incoming (lastOfEachName existing) = .error fault
      ∨ ∃ merged,
        mergeAll Container.name Container.merge incoming (lastOfEachName existing) = .ok merged
        ∧ maxContainers < merged.length ∧ fault = overfull merged.length := by
  rcases bind_eq_error.1 h with hfails | ⟨all, hall, h⟩
  · exact .inl hfails
  · split at h
    · next hfull =>
        cases h
        exact .inr ⟨all, hall, hfull, rfl⟩
    · cases h

theorem nodup_lastOfEachName (cs : List Container) :
    ((lastOfEachName cs).map Container.name).Nodup := by
  rw [names_lastOfEachName]
  exact nodup_eraseDups _

-- =========================================================== databases

/-- A merged database has the name of the new one and the merged containers. -/
theorem Database.merge_ok {old new m : Database} (h : Database.merge old new = .ok m) :
    m.name = new.name
      ∧ mergeContainers old.containers new.containers = .ok m.containers := by
  obtain ⟨containers, hcontainers, h⟩ := bind_eq_ok.1 h
  cases h
  exact ⟨rfl, hcontainers⟩

/-- Databases are refused for their containers only. -/
theorem Database.merge_error {old new : Database} {fault : Fault}
    (h : Database.merge old new = .error fault) :
    mergeContainers old.containers new.containers = .error fault := by
  rcases bind_eq_error.1 h with hfails | ⟨containers, -, h⟩
  · exact hfails
  · cases h

theorem Database.keepsName : KeepsName Database.name Database.merge :=
  fun _ _ _ _ h => (Database.merge_ok h).1

-- =========================================================== accounts

/-- The databases that accounts ask for, one after the other. -/
def requested (accounts : List Account) : List Database :=
  accounts.flatMap fun a => a.databases.getD []

/-- The names of the containers that are asked for in a database. -/
def containersAsked (requests : List Database) (database : String) : List String :=
  ((requests.filter fun d => d.name = database).flatMap fun d =>
    d.containers.map Container.name).eraseDups

/-- Databases are merged where some account lists any. -/
theorem mergeDatabases_eq (accounts : List Account) :
    mergeDatabases accounts
      = if accounts.all (fun a => a.databases.isNone) = true then .ok none
        else mergeAll Database.name Database.merge (requested accounts) [] >>= fun merged =>
          if maxDatabases < merged.length then .error (overfullAccount merged.length)
          else .ok (some merged) := by
  unfold mergeDatabases
  split
  · rfl
  · rfl

/-- Accounts without databases request none. -/
theorem requested_eq_nil {accounts : List Account}
    (h : accounts.all (fun a => a.databases.isNone) = true) : requested accounts = [] := by
  refine List.flatMap_eq_nil_iff.2 fun a ha => ?_
  have hnone := List.all_eq_true.1 h a ha
  rw [Option.isNone_iff_eq_none.1 hnone]
  rfl

/-- Merged databases went through the merge by name and fit the limit. -/
theorem mergeDatabases_ok {accounts : List Account} {merged : Option (List Database)}
    (h : mergeDatabases accounts = .ok merged) :
    mergeAll Database.name Database.merge (requested accounts) [] = .ok (merged.getD [])
      ∧ (merged.getD []).length ≤ maxDatabases := by
  rw [mergeDatabases_eq] at h
  split at h
  · next hnone =>
      cases h
      rw [requested_eq_nil hnone]
      exact ⟨rfl, Nat.zero_le _⟩
  · obtain ⟨databases, hdatabases, h⟩ := bind_eq_ok.1 h
    split at h
    · cases h
    · next hfits =>
        cases h
        exact ⟨hdatabases, Nat.not_lt.1 hfits⟩

/-- The merged account lists databases just if some account does. -/
theorem isNone_mergeDatabases {accounts : List Account} {merged : Option (List Database)}
    (h : mergeDatabases accounts = .ok merged) :
    accounts.all (fun a => a.databases.isNone) = merged.isNone := by
  rw [mergeDatabases_eq] at h
  split at h
  · next hnone =>
      cases h
      exact hnone
  · next hsome =>
      obtain ⟨databases, -, h⟩ := bind_eq_ok.1 h
      split at h
      · cases h
      · cases h
        exact Bool.eq_false_iff.2 hsome

/-- A fault of the merge by name is the fault of the whole. -/
theorem mergeDatabases_of_error {accounts : List Account} {fault : Fault}
    (h : mergeAll Database.name Database.merge (requested accounts) [] = .error fault) :
    mergeDatabases accounts = .error fault := by
  rw [mergeDatabases_eq]
  split
  · next hnone =>
      rw [requested_eq_nil hnone] at h
      cases h
  · exact bind_eq_error.2 (.inl h)

end Depot.Cosmos
