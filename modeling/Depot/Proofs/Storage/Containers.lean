/-
The containers of storage accounts. A container is kept under its full name,
in front of which stands the owner; a name that is full already stays what
it is (`containerName_again`).

A request for a container takes the place of an earlier one of the same full
name, its owner included; only the access is settled between the two. That
is a merge by name which never fails (`mergeInto_eq`), so what holds of items
merged by name holds of these containers (`mergeContainers_eq`), and each of
them is under the full name of its last request (`settled_mergeContainers`).
-/
import Depot.Proofs.Cosmos.ByName
import Depot.Provider.Storage

namespace Depot.Storage

-- =============================================================== names

/-- An owner is put to no name, or to every name that does not have it. -/
theorem containerName_cases (owner : Option String) :
    (∀ name, containerName name owner = name)
    ∨ ∃ lead : List Char, ∀ name, containerName name owner
        = if lead.isPrefixOf name.toList = true then name else String.ofList lead ++ name := by
  cases owner with
  | none => exact .inl fun _ => rfl
  | some owner =>
      by_cases hempty : owner = ""
      · subst hempty
        exact .inl fun _ => rfl
      · by_cases hshared : owner = "shared"
        · subst hshared
          exact .inl fun _ => rfl
        · exact .inr ⟨ownerLead owner ++ ['-'], fun name => by simp [containerName]⟩

/-- A name that an owner has been put to is full. -/
theorem containerName_again (name : String) (owner : Option String) :
    containerName (containerName name owner) owner = containerName name owner := by
  rcases containerName_cases owner with hkept | ⟨lead, hput⟩
  · rw [hkept, hkept]
  · rw [hput name]
    by_cases hlead : lead.isPrefixOf name.toList = true
    · rw [if_pos hlead, hput, if_pos hlead]
    · have hfull : lead.isPrefixOf (String.ofList lead ++ name).toList = true := by
        rw [String.toList_append, String.toList_ofList, List.isPrefixOf_iff_prefix]
        exact List.prefix_append _ _
      rw [if_neg hlead, hput, if_pos hfull]

/-- The container under its full name. -/
def Container.named (c : Container) : Container := { c with name := c.fullName }

/-- The container is under its full name. -/
def Container.Settled (c : Container) : Prop := c.fullName = c.name

/-- A container under its full name is settled. -/
theorem Container.settled_named (c : Container) : c.named.Settled :=
  containerName_again c.name c.owner

/-- A settled container has its full name already. -/
theorem Container.Settled.named {c : Container} (h : c.Settled) : c.named = c := by
  unfold Container.named
  rw [h]

-- ============================================================= merging

/-- A request for a container put to an earlier one. -/
def Container.join (old new : Container) : Except Fault Container :=
  .ok { new with access := mostRestrictive old.access new.access }

theorem Container.keepsName : Cosmos.KeepsName Container.name Container.join := by
  intro old new m _ h
  cases h
  rfl

/-- Containers are merged in by name, and joining them never fails. -/
theorem mergeInto_eq (new : Container) (table : List Container) :
    Cosmos.mergeInto Container.name Container.join new table = .ok (mergeInto new table) := by
  induction table with
  | nil => rfl
  | cons old table ih =>
      rw [Cosmos.mergeInto, mergeInto]
      by_cases hname : old.name = new.name
      · rw [if_pos hname, if_pos hname]
        rfl
      · rw [if_neg hname, if_neg hname, ih]
        rfl

/-- The containers that accounts ask for, one after the other. -/
def requested (accounts : List Account) : List Container :=
  accounts.flatMap fun a => a.containers.getD []

/-- The fault of an account with too many containers. -/
def overfull (count : Nat) : Fault :=
  .limitExceeded (.str "storage") (.int maxContainers) (.int count)

/-- Many containers are merged in by name, each under its full name. -/
theorem mergeAll_eq (requests table : List Container) :
    Cosmos.mergeAll Container.name Container.join (requests.map Container.named) table
      = .ok (requests.foldl (fun acc c => mergeInto { c with name := c.fullName } acc) table) := by
  induction requests generalizing table with
  | nil => rfl
  | cons c requests ih => exact bind_eq_ok.2 ⟨_, mergeInto_eq c.named table, ih _⟩

/-- Containers are merged by their full names, and counted at the end. -/
theorem mergeContainers_eq (accounts : List Account) :
    mergeContainers accounts
      = Cosmos.mergeAll Container.name Container.join ((requested accounts).map Container.named) []
        >>= fun merged =>
          if maxContainers < merged.length then .error (overfull merged.length)
          else .ok merged := by
  rw [mergeAll_eq]
  rfl

/-- Merged containers went through the merge by name and fit the limit. -/
theorem mergeContainers_ok {accounts : List Account} {merged : List Container}
    (h : mergeContainers accounts = .ok merged) :
    Cosmos.mergeAll Container.name Container.join ((requested accounts).map Container.named) []
        = .ok merged
      ∧ merged.length ≤ maxContainers := by
  rw [mergeContainers_eq] at h
  obtain ⟨all, hall, h⟩ := bind_eq_ok.1 h
  split at h
  · cases h
  · next hfits =>
      cases h
      exact ⟨hall, Nat.not_lt.1 hfits⟩

/-- Merged containers are under their full names. -/
theorem settled_mergeContainers {accounts : List Account} {merged : List Container}
    (h : mergeContainers accounts = .ok merged) : ∀ c ∈ merged, c.Settled := by
  refine Cosmos.forall_mergeAll (by simp) (List.forall_mem_map.2 fun c _ => c.settled_named)
    (fun old new m _ hnew _ hm => ?_) (mergeContainers_ok h).1
  cases hm
  exact hnew

end Depot.Storage
