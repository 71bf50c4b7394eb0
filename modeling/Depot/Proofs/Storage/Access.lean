/-
The public access of containers that several accounts ask for. Every request
for a container may set a level of access, and the merged container is to have
the most restrictive of these (`strictest`): the lowest in the order nothing,
blob, container, and none at all only if no request sets one. Which one that
is does not depend on the order of the requests (`strictest_perm`).

The requests for a name are settled one after the other, and what has come out
so far is what the levels so far say (`settled_concat`): the strictest of them
where nothing or blob is set, and otherwise the last, set or not. That is
where it goes wrong. Of the level of a whole container and none the later is
taken, so that a last request without a level forgets the level of those
before it (`Forgotten`). Everywhere else a merged container has the strictest
level (`access_is_strictest`).
-/
import Depot.Proofs.Storage.Containers

namespace Depot.Storage

variable {levels levels' : List (Option PublicAccess)} {level : PublicAccess}

-- ============================================================== levels

/-- The rank of a level, the most restrictive first. -/
def PublicAccess.rank : PublicAccess → Nat
  | .nothing => 0
  | .blob => 1
  | .container => 2

/-- The most restrictive of the levels that are set. -/
def strictest (levels : List (Option PublicAccess)) : Option PublicAccess :=
  [PublicAccess.nothing, .blob, .container].find? fun level => some level ∈ levels

/-- The strictest level is looked for from the strictest down. -/
theorem strictest_eq (levels : List (Option PublicAccess)) :
    strictest levels
      = if some .nothing ∈ levels then some .nothing else if some .blob ∈ levels then some .blob
        else if some .container ∈ levels then some .container else none := by
  unfold strictest
  split
  · next hn => simp [hn]
  · next hn =>
      split
      · next hb => simp [hn, hb]
      · next hb =>
          split
          · next hc => simp [hn, hb, hc]
          · next hc => simp [hn, hb, hc]

/-- The strictest of several levels is one of them, and none is stricter. -/
theorem strictest_eq_some_iff :
    strictest levels = some level
      ↔ some level ∈ levels ∧ ∀ other, some other ∈ levels → level.rank ≤ other.rank := by
  have hothers : (∀ other, some other ∈ levels → level.rank ≤ other.rank)
      ↔ (some .nothing ∈ levels → level.rank ≤ 0) ∧ (some .blob ∈ levels → level.rank ≤ 1)
        ∧ (some .container ∈ levels → level.rank ≤ 2) :=
    ⟨fun h => ⟨h _, h _, h _⟩, fun ⟨hn, hb, hc⟩ other => by cases other <;> assumption⟩
  rw [hothers, strictest_eq]
  split
  · next hn => cases level <;> simp [PublicAccess.rank, hn]
  · next hn =>
      split
      · next hb => cases level <;> simp [PublicAccess.rank, hn, hb]
      · next hb => cases level <;> simp [PublicAccess.rank, hn, hb]

/-- There is none if no level is given. -/
theorem strictest_eq_none_iff : strictest levels = none ↔ ∀ level ∈ levels, level = none := by
  unfold strictest
  rw [List.find?_eq_none]
  constructor
  · intro h level hin
    cases level with
    | none => rfl
    | some level =>
        have hlisted : level ∈ [PublicAccess.nothing, .blob, .container] := by cases level <;> decide
        exact absurd (decide_eq_true hin) (h level hlisted)
  · intro h level _ hin
    cases h _ (of_decide_eq_true hin)

/-- The order of levels does not matter to the strictest. -/
theorem strictest_perm (h : levels.Perm levels') : strictest levels = strictest levels' := by
  unfold strictest
  simp only [h.mem_iff]

-- ============================================================ settling

/-- What is left of several levels, one settled with the other. -/
def settled (levels : List (Option PublicAccess)) : Option PublicAccess :=
  if some .nothing ∈ levels ∨ some .blob ∈ levels then strictest levels else levels.getLast?.join

theorem mem_of_getLast?_join (h : levels.getLast?.join = some level) : some level ∈ levels :=
  List.mem_of_getLast? (Option.join_eq_some_iff.1 h)

theorem settled_singleton (level : Option PublicAccess) : settled [level] = level := by
  rcases level with _ | _ | _ | _ <;> rfl

/-- One level more is settled with what is left of those before it. -/
theorem settled_concat (levels : List (Option PublicAccess)) (new : Option PublicAccess) :
    mostRestrictive (settled levels) new = settled (levels ++ [new]) := by
  by_cases hn : some PublicAccess.nothing ∈ levels
  · simp [settled, strictest, mostRestrictive, hn]
  · by_cases hb : some PublicAccess.blob ∈ levels
    · rcases new with _ | _ | _ | _ <;> simp [settled, strictest, mostRestrictive, hn, hb]
    · -- neither restricts, so what is left is the last level, and it does not either
      have hlast : settled levels = levels.getLast?.join := by simp [settled, hn, hb]
      have hn' : levels.getLast?.join ≠ some .nothing := fun h => hn (mem_of_getLast?_join h)
      have hb' : levels.getLast?.join ≠ some .blob := fun h => hb (mem_of_getLast?_join h)
      rw [hlast]
      rcases new with _ | _ | _ | _ <;>
        simp [settled, strictest, mostRestrictive, hn, hb, hn', hb']

/-- The level of a whole container is all that is asked for, and the last
request leaves it out. -/
def Forgotten (levels : List (Option PublicAccess)) : Prop :=
  strictest levels = some .container ∧ levels.getLast? = some none

/-- Where the whole container is strictest nothing else is asked for. -/
theorem eq_container_of_strictest (h : strictest levels = some .container)
    (hin : some level ∈ levels) : level = .container := by
  have hleast := (strictest_eq_some_iff.1 h).2 level hin
  cases level with
  | nothing | blob => exact absurd hleast (by decide)
  | container => rfl

/-- A level that the last request leaves out is forgotten. -/
theorem settled_of_forgotten (h : Forgotten levels) : settled levels = none := by
  obtain ⟨hcontainer, hlast⟩ := h
  have hfree : ¬ (some PublicAccess.nothing ∈ levels ∨ some PublicAccess.blob ∈ levels) := by
    rintro (hn | hb)
    · cases eq_container_of_strictest hcontainer hn
    · cases eq_container_of_strictest hcontainer hb
  rw [settled, if_neg hfree, hlast]
  rfl

/-- What is left is the strictest level unless that is forgotten. -/
theorem settled_eq_strictest_iff : settled levels = strictest levels ↔ ¬ Forgotten levels := by
  by_cases hforgotten : Forgotten levels
  · rw [settled_of_forgotten hforgotten, hforgotten.1]
    exact iff_of_false nofun (not_not.2 hforgotten)
  · refine iff_of_true ?_ hforgotten
    unfold settled
    split
    · rfl
    · next hfree =>
        rw [not_or] at hfree
        by_cases hc : some PublicAccess.container ∈ levels
        · have hstrictest : strictest levels = some .container := by simp [strictest_eq, hfree, hc]
          have hlast := List.getLast?_eq_some_getLast (List.ne_nil_of_mem hc)
          rw [hstrictest, hlast, Option.join_some]
          -- the last request sets a level, and there is no other
          cases hset : levels.getLast (List.ne_nil_of_mem hc) with
          | none => exact absurd ⟨hstrictest, hlast.trans (congrArg some hset)⟩ hforgotten
          | some level =>
              have hin : some level ∈ levels := hset ▸ List.getLast_mem _
              rw [eq_container_of_strictest hstrictest hin]
        · have hnone : ∀ level ∈ levels, level = none := by
            rintro (_ | _ | _ | _) hin
            · rfl
            · exact absurd hin hfree.1
            · exact absurd hin hfree.2
            · exact absurd hin hc
          rw [strictest_eq_none_iff.2 hnone]
          cases hlast : levels.getLast?.join with
          | none => rfl
          | some level => cases hnone _ (mem_of_getLast?_join hlast)

-- ============================================================= merging

/-- The levels that requests for a container set, by its full name and in the
order of the requests. -/
def levelsFor (accounts : List Account) (name : String) : List (Option PublicAccess) :=
  ((requested accounts).filter fun c => c.fullName = name).map Container.access

/-- The access of a merged container is what is left of the levels for it. -/
theorem access_mergeContainers {accounts : List Account} {merged : List Container}
    (h : mergeContainers accounts = .ok merged) :
    ∀ c ∈ merged, c.access = settled (levelsFor accounts c.name) := by
  intro c hc
  have hsettled := Cosmos.forall_mergeAll_sameName
    (R := fun asked c => c.access = settled (asked.map Container.access)) Container.keepsName
    (fun x => (settled_singleton x.access).symm)
    (fun asked old new m hold hm => by
      cases hm
      rw [hold, List.map_append]
      exact settled_concat _ _)
    (mergeContainers_ok h).1 c hc
  rw [hsettled]
  unfold levelsFor Cosmos.sameName
  rw [List.filter_map, List.map_map]
  rfl

theorem levelsFor_perm {accounts accounts' : List Account}
    (h : (requested accounts).Perm (requested accounts')) (name : String) :
    (levelsFor accounts name).Perm (levelsFor accounts' name) := (h.filter _).map _

/-- Requests in another order come to containers of the same names. -/
theorem exists_mergeContainers_of_perm {accounts accounts' : List Account} {merged : List Container}
    (hperm : (requested accounts).Perm (requested accounts'))
    (h : mergeContainers accounts = .ok merged) :
    ∃ merged', mergeContainers accounts' = .ok merged'
      ∧ (merged.map Container.name).Perm (merged'.map Container.name) := by
  obtain ⟨hall, hfits⟩ := mergeContainers_ok h
  have hall' := mergeAll_eq (requested accounts') []
  rw [mergeContainers_eq, hall']
  generalize (requested accounts').foldl _ [] = merged' at hall' ⊢
  have hnames := Cosmos.names_mergeAll Container.keepsName (by simp) hall
  have hnames' := Cosmos.names_mergeAll Container.keepsName (by simp) hall'
  have hsame : (merged.map Container.name).Perm (merged'.map Container.name) := by
    rw [hnames, hnames']
    refine (List.perm_ext_iff_of_nodup (nodup_eraseDups _) (nodup_eraseDups _)).2 fun name => ?_
    rw [List.mem_eraseDups, List.mem_eraseDups]
    exact ((hperm.map _).map _).mem_iff
  have hlength : merged.length = merged'.length := by simpa using hsame.length_eq
  exact ⟨merged', if_neg (Nat.not_lt.2 (hlength ▸ hfits)), hsame⟩

/-- A merged container has the strictest of the levels that are asked for
under its name, and none just if no request sets one, unless the last request
makes the level of a whole container forgotten; then it has none. In any other
order of the requests there is a container of that name, too, and it has the
same level where neither order forgets it. -/
theorem access_is_strictest {accounts : List Account} {merged : List Container}
    (hok : mergeContainers accounts = .ok merged) :
    ∀ c ∈ merged,
      (c.access = strictest (levelsFor accounts c.name) ↔ ¬ Forgotten (levelsFor accounts c.name))
      ∧ (Forgotten (levelsFor accounts c.name) → c.access = none)
      ∧ ∀ accounts', (requested accounts).Perm (requested accounts') →
        ∃ merged', mergeContainers accounts' = .ok merged' ∧ ∃ c' ∈ merged', c'.name = c.name
          ∧ (¬ Forgotten (levelsFor accounts c.name) → ¬ Forgotten (levelsFor accounts' c.name) →
            c'.access = c.access) := by
  intro c hc
  have haccess := access_mergeContainers hok c hc
  refine ⟨by rw [haccess, settled_eq_strictest_iff], fun h => haccess.trans (settled_of_forgotten h),
    fun accounts' hperm => ?_⟩
  obtain ⟨merged', hok', hnames⟩ := exists_mergeContainers_of_perm hperm hok
  obtain ⟨c', hc', hname⟩ := List.mem_map.1 (hnames.subset (List.mem_map_of_mem hc))
  refine ⟨merged', hok', c', hc', hname, fun hkept hkept' => ?_⟩
  have haccess' := access_mergeContainers hok' c' hc'
  rw [hname] at haccess'
  calc c'.access = settled (levelsFor accounts' c.name) := haccess'
    _ = strictest (levelsFor accounts' c.name) := settled_eq_strictest_iff.2 hkept'
    _ = strictest (levelsFor accounts c.name) := (strictest_perm (levelsFor_perm hperm c.name)).symm
    _ = settled (levelsFor accounts c.name) := (settled_eq_strictest_iff.2 hkept).symm
    _ = c.access := haccess.symm

/-- Accounts that ask for one container, each with another level. -/
def logAccounts : List Account :=
  [some .container, some .blob, none].map fun level =>
    { containers := some [⟨"logs", none, level⟩] }

/-- Blobs alone are open, whichever request is the last. -/
theorem logs_are_open_for_blobs :
    levelsFor logAccounts "logs" = [some .container, some .blob, none]
      ∧ (∃ c, mergeContainers logAccounts = .ok [c] ∧ c.name = "logs" ∧ c.access = some .blob)
      ∧ ∃ merged, mergeContainers logAccounts.reverse = .ok merged
        ∧ ∃ c ∈ merged, c.name = "logs" ∧ c.access = some .blob := by
  have hok : mergeContainers logAccounts = .ok [⟨"logs", none, some .blob⟩] := rfl
  have hkept : ¬ Forgotten (levelsFor logAccounts "logs") := by
    unfold Forgotten
    decide
  have hkept' : ¬ Forgotten (levelsFor logAccounts.reverse "logs") := by
    unfold Forgotten
    decide
  have hperm : (requested logAccounts).Perm (requested logAccounts.reverse) := by decide
  obtain ⟨-, -, horder⟩ := access_is_strictest hok _ List.mem_cons_self
  obtain ⟨merged, hmerged, c, hc, hname, haccess⟩ := horder logAccounts.reverse hperm
  exact ⟨rfl, ⟨_, hok, rfl, rfl⟩, merged, hmerged, c, hc, hname, haccess hkept hkept'⟩

/-- An account that asks for one container twice, the second time without a
level. -/
def mediaAccount : Account :=
  { containers := some [⟨"media", none, some .container⟩, ⟨"media", none, none⟩] }

/-- The level is forgotten, and in the other order it is not. -/
theorem last_request_forgets_level :
    canMerge mediaAccount {} = true
      ∧ strictest (levelsFor [mediaAccount, {}] "media") = some .container
      ∧ mergeContainers [mediaAccount, {}] = .ok [⟨"media", none, none⟩]
      ∧ mergeContainers [{ containers := (mediaAccount.containers.getD []).reverse }, {}]
        = .ok [⟨"media", none, some .container⟩] := ⟨rfl, rfl, rfl, rfl⟩

end Depot.Storage
