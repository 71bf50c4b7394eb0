/-
Merging in steps. Accounts can be merged all at once, or some of them first
and what they became with the others later: the result is the same, and so
is the fault if there is one (`accounts_merge_in_steps`). So a merged account
stands for the accounts that it was made of.

Every field of a merged account is told by a function of all accounts, and
each of these functions goes on from what it told of the first ones (the
lemmas `…_again`). For databases and containers this is `mergeAll_again`: a
table that is merged into nothing gives itself back. Their limits are held
against the tables at the end, which are the same tables either way. A
storage account takes one thing more: containers are put under their full
names each time, and a full name stays what it is.
-/
import Depot.Proofs.Cosmos.Merging
import Depot.Proofs.Storage.Containers

namespace Depot

/-- What some configurations became stands for them in a merge with
others. -/
def MergesInSteps {C : Type} (merge : List C → Except Fault C) : Prop :=
  ∀ {first : List C} {merged : C}, merge first = .ok merged →
    ∀ more, merge (first ++ more) = merge (merged :: more)

/-- A merge that first collects what may be at fault, and then tells the rest
from all configurations, is done in steps if both parts are. -/
theorem MergesInSteps.of_parts {C D : Type} {merge : List C → Except Fault C}
    {collect : List C → Except Fault D} {whole : C → List C → D → C}
    (hnone : ∀ merged, merge [] ≠ .ok merged)
    (hmerge : ∀ base rest, merge (base :: rest)
      = collect (base :: rest) >>= fun d => .ok (whole base (base :: rest) d))
    (hcollect : ∀ base {first d}, collect first = .ok d → ∀ more,
      collect (first ++ more) = collect (whole base first d :: more))
    (hwhole : ∀ base first d more d', whole base (first ++ more) d'
      = whole (whole base first d) (whole base first d :: more) d') : MergesInSteps merge := by
  intro first merged h more
  cases first with
  | nil => exact absurd h (hnone merged)
  | cons base rest =>
      rw [hmerge] at h
      obtain ⟨d, hd, hmerged⟩ := bind_eq_ok.1 h
      cases hmerged
      have hlater := hcollect base hd more
      rw [List.cons_append] at hlater
      rw [List.cons_append, hmerge, hmerge, hlater]
      exact congrArg _ (funext fun d' =>
        congrArg Except.ok (hwhole base (base :: rest) d more d'))

-- ====================================================== single settings

section Settings

variable {α β : Type} [DecidableEq β]

/-- A value that one configuration forces on all is forced on by what they
became. -/
theorem forced_again (setting : α → Option β) (v : β) {first : List α} {merged : α}
    {base : Option β}
    (h : setting merged = if first.any (fun a => setting a = some v) = true then some v else base)
    (more : List α) :
    (if (first ++ more).any (fun a => setting a = some v) = true then some v else base)
      = if (merged :: more).any (fun a => setting a = some v) = true then some v
        else setting merged := by
  rw [List.any_append, List.any_cons]
  cases hfirst : first.any fun a => setting a = some v with
  | true =>
      rw [hfirst, if_pos rfl] at h
      simp [h]
  | false =>
      rw [hfirst, if_neg Bool.false_ne_true] at h
      rw [h, Bool.false_or]
      by_cases hbase : base = some v
      · simp [hbase]
      · simp [hbase]

/-- Of choices in order, the first one that is taken stays so when further
ones are taken later. -/
theorem find?_again {choices : List β} (hnodup : choices.Nodup) (taken later : β → Bool) :
    choices.find? (fun x => taken x || later x)
      = choices.find? fun x => decide (choices.find? taken = some x) || later x := by
  induction choices with
  | nil => rfl
  | cons x choices ih =>
      obtain ⟨hx, hnodup⟩ := List.nodup_cons.1 hnodup
      cases htaken : taken x with
      | true => simp [htaken]
      | false =>
          have hother : choices.find? taken ≠ some x := fun hfound =>
            hx (List.mem_of_find?_eq_some hfound)
          have hskip : (x :: choices).find? taken = choices.find? taken :=
            List.find?_cons_of_neg (by simp [htaken])
          rw [hskip, List.find?_cons, List.find?_cons, htaken, decide_eq_false hother,
            Bool.false_or, ih hnodup]

omit [DecidableEq β] in
/-- What configurations have for a setting, one after the other. -/
theorem filterMap_cons_toList (setting : α → Option β) (a : α) (as : List α) :
    (a :: as).filterMap setting = (setting a).toList ++ as.filterMap setting := by
  cases h : setting a with
  | none => rw [List.filterMap_cons_none h, Option.toList_none, List.nil_append]
  | some b => rw [List.filterMap_cons_some h, Option.toList_some, List.singleton_append]

end Settings

-- ============================================================== Cosmos

namespace Cosmos

/-- United lists have the names of all, once each. -/
theorem getD_unite (lists : List (Option (List String))) :
    (unite lists).getD [] = (lists.flatMap fun l => l.getD []).eraseDups := by
  unfold unite
  split
  · next h => exact h.symm
  · rfl

/-- Only the distinct texts of all lists count. -/
theorem unite_congr {lists lists' : List (Option (List String))}
    (h : (lists.flatMap fun l => l.getD []).eraseDups
      = (lists'.flatMap fun l => l.getD []).eraseDups) : unite lists = unite lists' := by
  unfold unite
  rw [h]

theorem unite_again (first more : List (Option (List String))) :
    unite (first ++ more) = unite (unite first :: more) := by
  refine unite_congr ?_
  rw [List.flatMap_cons, getD_unite, List.flatMap_append, eraseDups_eraseDups_append]

/-- The strictest access may be found in steps. -/
theorem strictest_again {first : List Account} {merged : Account}
    (h : merged.access = strictest first) (more : List Account) :
    strictest (first ++ more) = strictest (merged :: more) := by
  have horder : [Access.disabled, .byPerimeter, .enabled].Nodup := by decide
  unfold strictest at h ⊢
  simp only [List.any_append, List.any_cons, h]
  exact find?_again horder _ _

/-- Databases may be merged in steps. -/
theorem mergeDatabases_again {first : List Account} {merged : Account}
    (h : mergeDatabases first = .ok merged.databases) (more : List Account) :
    mergeDatabases (first ++ more) = mergeDatabases (merged :: more) := by
  have hrequested : requested (first ++ more) = requested first ++ requested more :=
    List.flatMap_append
  have hmerged : requested (merged :: more) = merged.databases.getD [] ++ requested more :=
    List.flatMap_cons
  have hagain := mergeAll_again Database.keepsName (mergeDatabases_ok h).1 (requested more)
  rw [mergeDatabases_eq, mergeDatabases_eq, List.all_append, List.all_cons, hrequested, hmerged,
    hagain, isNone_mergeDatabases h]

/-- The account that accounts become with their merged databases. -/
def whole (base : Account) (all : List Account) (databases : Option (List Database)) : Account :=
  { base with
    multiRegion := anyOn Account.multiRegion all base.multiRegion
    freeTier := anyOn Account.freeTier all base.freeTier
    access := strictest all
    capabilities := unite (all.map Account.capabilities)
    databases := databases
    moreLocations := unite (all.map Account.moreLocations) }

theorem merge_eq (base : Account) (rest : List Account) :
    merge (base :: rest)
      = mergeDatabases (base :: rest) >>= fun databases =>
        .ok (whole base (base :: rest) databases) := rfl

/-- Every field of the account goes on from the merged account. -/
theorem whole_again (base : Account) (first : List Account) (listed : Option (List Database))
    (more : List Account) (databases : Option (List Database)) :
    whole base (first ++ more) databases
      = whole (whole base first listed) (whole base first listed :: more) databases := by
  obtain ⟨merged, hmerged⟩ : ∃ merged, merged = whole base first listed := ⟨_, rfl⟩
  have hregion : anyOn Account.multiRegion (first ++ more) base.multiRegion
      = anyOn Account.multiRegion (merged :: more) merged.multiRegion :=
    forced_again Account.multiRegion true (congrArg Account.multiRegion hmerged) more
  have htier : anyOn Account.freeTier (first ++ more) base.freeTier
      = anyOn Account.freeTier (merged :: more) merged.freeTier :=
    forced_again Account.freeTier true (congrArg Account.freeTier hmerged) more
  have haccess : strictest (first ++ more) = strictest (merged :: more) :=
    strictest_again (congrArg Account.access hmerged) more
  have hunited : ∀ field : Account → Option (List String), field merged = unite (first.map field) →
      unite ((first ++ more).map field) = unite ((merged :: more).map field) := by
    intro field hfield
    rw [List.map_append, unite_again, List.map_cons, hfield]
  rw [← hmerged]
  unfold whole
  rw [hregion, htier, haccess,
    hunited Account.capabilities (congrArg Account.capabilities hmerged),
    hunited Account.moreLocations (congrArg Account.moreLocations hmerged), hmerged]
  rfl

/-- Accounts for documents may be merged in steps. -/
theorem mergesInSteps : MergesInSteps merge :=
  MergesInSteps.of_parts (fun _ h => by cases h) merge_eq
    (fun _ _ _ hlisted more => mergeDatabases_again hlisted more) whole_again

end Cosmos

-- ============================================================= Storage

namespace Storage

/-- The highest of several tiers, if there is any. -/
def highest? : List String → Option String
  | [] => none
  | sku :: rest =>
      some (rest.foldl (fun best s => if skuRank best < skuRank s then s else best) sku)

/-- The highest may be found in steps. -/
theorem highest?_again (first more : List String) :
    highest? (first ++ more) = highest? ((highest? first).toList ++ more) := by
  cases first with
  | nil => rfl
  | cons sku rest =>
      rw [List.cons_append, highest?, List.foldl_append]
      rfl

theorem hottest_cons (tier : Tier) (rest : List Tier) :
    hottest (tier :: rest) = if Tier.hot ∈ tier :: rest then some .hot else some .cool := rfl

/-- The hottest tier may be found in steps. -/
theorem hottest_again (first more : List Tier) :
    hottest (first ++ more) = hottest ((hottest first).toList ++ more) := by
  cases first with
  | nil => rfl
  | cons tier rest =>
      rw [List.cons_append, hottest_cons, hottest_cons]
      by_cases hhot : Tier.hot ∈ tier :: rest
      · have hstill : Tier.hot ∈ tier :: (rest ++ more) := List.mem_append_left more hhot
        rw [if_pos hhot, if_pos hstill]
        rfl
      · have hlater : Tier.hot ∈ tier :: (rest ++ more) ↔ Tier.hot ∈ Tier.cool :: more := by
          rw [← List.cons_append, List.mem_append, List.mem_cons (b := Tier.cool)]
          simp [hhot]
        rw [if_neg hhot, Option.toList_some, List.singleton_append, hottest_cons]
        exact if_congr hlater rfl rfl

/-- Containers for files may be merged in steps. -/
theorem mergeContainers_again {first : List Account} {merged : Account}
    {containers : List Container} (h : mergeContainers first = .ok containers)
    (hmerged : merged.containers = some containers) (more : List Account) :
    mergeContainers (first ++ more) = mergeContainers (merged :: more) := by
  have hrequested : (requested (first ++ more)).map Container.named
      = (requested first).map Container.named ++ (requested more).map Container.named := by
    rw [requested, List.flatMap_append, List.map_append]
    rfl
  -- what was merged is under full names already
  have hsettled : containers.map Container.named = containers :=
    (List.map_congr_left fun c hc => (settled_mergeContainers h c hc).named).trans (List.map_id _)
  have hcontainers : (requested (merged :: more)).map Container.named
      = containers ++ (requested more).map Container.named := by
    rw [requested, List.flatMap_cons, hmerged, List.map_append, Option.getD_some, hsettled]
    rfl
  rw [mergeContainers_eq, mergeContainers_eq, hrequested, hcontainers,
    Cosmos.mergeAll_again Container.keepsName (mergeContainers_ok h).1]

/-- The account that accounts become with their merged containers. -/
def whole (base : Account) (all : List Account) (containers : List Container) : Account :=
  { base with
    sku := highest? (all.filterMap Account.sku)
    tier := hottest (all.filterMap Account.tier)
    containers := some containers
    blobAccess :=
      if all.any fun a => a.blobAccess = some false then some false else base.blobAccess }

/-- An account for files is merged from its containers and otherwise whole. -/
theorem merge_eq (base : Account) (rest : List Account) :
    merge (base :: rest)
      = mergeContainers (base :: rest) >>= fun containers =>
        .ok (whole base (base :: rest) containers) := by
  unfold merge whole
  dsimp only
  cases hskus : (base :: rest).filterMap Account.sku with
  | nil => rfl
  | cons sku skus => rfl

/-- Every field of the account goes on from the merged account. -/
theorem whole_again (base : Account) (first : List Account) (listed : List Container)
    (more : List Account) (containers : List Container) :
    whole base (first ++ more) containers
      = whole (whole base first listed) (whole base first listed :: more) containers := by
  obtain ⟨merged, hmerged⟩ : ∃ merged, merged = whole base first listed := ⟨_, rfl⟩
  have hsku : highest? ((first ++ more).filterMap Account.sku)
      = highest? ((merged :: more).filterMap Account.sku) := by
    rw [List.filterMap_append, highest?_again, filterMap_cons_toList,
      congrArg Account.sku hmerged]
    rfl
  have htier : hottest ((first ++ more).filterMap Account.tier)
      = hottest ((merged :: more).filterMap Account.tier) := by
    rw [List.filterMap_append, hottest_again, filterMap_cons_toList,
      congrArg Account.tier hmerged]
    rfl
  rw [← hmerged]
  unfold whole
  rw [hsku, htier, forced_again Account.blobAccess false (congrArg Account.blobAccess hmerged) more,
    hmerged]
  rfl

/-- Accounts for files may be merged in steps. -/
theorem mergesInSteps : MergesInSteps merge :=
  MergesInSteps.of_parts (fun _ h => by cases h) merge_eq
    (fun _ _ _ hlisted more => mergeContainers_again hlisted rfl more) whole_again

end Storage

-- ================================================================ both

/-- What accounts became stands for them: merged with others it gives the
account, or the fault, that all of them give at once. -/
theorem accounts_merge_in_steps :
    (∀ {first : List Cosmos.Account} {merged : Cosmos.Account},
      Cosmos.merge first = .ok merged →
      ∀ more, Cosmos.merge (first ++ more) = Cosmos.merge (merged :: more))
    ∧ ∀ {first : List Storage.Account} {merged : Storage.Account},
      Storage.merge first = .ok merged →
      ∀ more, Storage.merge (first ++ more) = Storage.merge (merged :: more) :=
  ⟨Cosmos.mergesInSteps, Storage.mergesInSteps⟩

/-- Accounts that share a database of users. -/
def regionalAccounts : List Cosmos.Account :=
  [{ access := some .enabled,
      databases := some [⟨"app", [⟨"users", "/id", none, some 60, none⟩]⟩] },
    { multiRegion := some true, access := some .byPerimeter,
      databases := some [⟨"app", [⟨"users", "/id", none, none, none⟩]⟩] }]

/-- Accounts of which one names a container as that of the other is named in
full. -/
def mediaAccounts : List Storage.Account :=
  [{ sku := some "Premium_LRS", containers := some [⟨"media", some "UserApi", some .container⟩] },
    { sku := some "Standard_LRS", containers := some [⟨"user-api-media", none, some .blob⟩] }]

/-- A later account meets what the earlier ones became as it meets them: with
another partition key it ends the merge, and with a container of the same
full name it joins that container. -/
theorem later_accounts_meet_merged_ones :
    (let later : Cosmos.Account :=
        { databases := some [⟨"app", [⟨"users", "/tenant", none, none, none⟩]⟩] }
      ∃ merged, Cosmos.merge regionalAccounts = .ok merged
        ∧ Cosmos.merge (regionalAccounts ++ [later]) = Cosmos.merge [merged, later]
        ∧ Cosmos.merge [merged, later] = .error (Cosmos.clash "users" "/id" "/tenant"))
    ∧ let later : Storage.Account := { containers := some [⟨"media", some "UserApi", none⟩] }
      ∃ merged whole, Storage.merge mediaAccounts = .ok merged
        ∧ Storage.merge (mediaAccounts ++ [later]) = Storage.merge [merged, later]
        ∧ Storage.merge [merged, later] = .ok whole
        ∧ whole.containers = some [⟨"user-api-media", some "UserApi", some .blob⟩] := by
  have hregional : Cosmos.merge regionalAccounts = .ok
      { multiRegion := some true, access := some .byPerimeter,
        databases := some [⟨"app", [⟨"users", "/id", none, some 60, none⟩]⟩] } := rfl
  have hmedia : Storage.merge mediaAccounts = .ok
      { sku := some "Premium_LRS",
        containers := some [⟨"user-api-media", none, some .blob⟩] } := rfl
  refine ⟨⟨_, hregional, accounts_merge_in_steps.1 hregional _, rfl⟩,
    _, _, hmedia, accounts_merge_in_steps.2 hmedia _, rfl, rfl⟩

end Depot
