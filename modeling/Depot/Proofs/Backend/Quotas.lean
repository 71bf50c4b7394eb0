/-
What quotas protect. `Within` says what it means for merged requirements
to be within the quotas of a backend: three quotas count requirements of a
type, one counts the requests of one function app, one counts the
containers of one storage account. The check of a backend passes exactly if
they are (`checkLimits_ok_iff`).

Nothing is made before that check, and nothing is made unless all phases
before it succeeded. `start_provides_within_quotas` says so of every
backend, whatever its components, validators and providers do: they may
fail anywhere, and merging may change a requirement's type and key.
-/
import Depot.Proofs.Watching.Run

namespace Depot

variable {σ α : Type}

-- ============================================================= within

/-- Merged requirements that are within all quotas that are set. -/
structure Within (limits : Limits) (requests merged : List (Request σ)) : Prop where
  /-- There are no more requirements of a capped type than its limit. (A
  limit below zero, which no configuration accepts, is one of zero.) -/
  accounts : ∀ type limit, limits.accountLimit type = some limit →
    (Requirement.ofType Request.toRequirement type merged).length ≤ limit.toNat
  /-- A group of requests for a function app has no more members than the
  limit for one app. -/
  apps : ∀ limit, limits.functionsPerApp = some limit →
    ∀ key first rest, (key, first :: rest) ∈ Backend.groups requests →
      first.type = .str "functions" → ((first :: rest).length : Int) ≤ limit
  /-- A storage configuration has no more containers than the limit for one
  account. -/
  containers : ∀ limit, limits.containersPerStorage = some limit →
    ∀ r ∈ merged, r.type = .str "storage" →
      ∃ count, ((Fields.getD r.config "containers").orElse (.list [])).length = .ok count
        ∧ (count : Int) ≤ limit

namespace Backend

/-- Only texts are capped. -/
theorem str_of_accountLimit {limits : Limits} {type : Value} {limit : Int}
    (h : limits.accountLimit type = some limit) : ∃ s, type = .str s := by
  unfold Limits.accountLimit at h
  split at h
  next => exact ⟨_, rfl⟩
  next => exact ⟨_, rfl⟩
  next => exact ⟨_, rfl⟩
  next => cases h

/-- Past the check of accounts no type has more requirements than its limit. -/
theorem accounts_of_checkAccounts {limits : Limits} {requirements : List Requirement}
    (h : checkAccounts limits requirements = .ok ()) {type : Value} {limit : Int}
    (hlimit : limits.accountLimit type = some limit) :
    (Requirement.ofType (fun r => r) type requirements).length ≤ limit.toNat := by
  obtain ⟨groups, hgroups, h⟩ := bind_eq_ok.1 h
  obtain ⟨_, h, -⟩ := bind_eq_ok.1 h
  obtain ⟨s, rfl⟩ := str_of_accountLimit hlimit
  have hget := Requirement.get?_groupByType _ hgroups (.str s)
  by_cases hnil : Requirement.ofType (fun r => r) (.str s) requirements = []
  · rw [hnil]
    exact Nat.zero_le _
  · -- the type has a group, and the loop went through it
    rw [if_neg hnil] at hget
    obtain ⟨k, hk, hsame⟩ := Keyed.mem_of_get? hget
    rw [Value.same_str_iff] at hsame
    subst hsame
    have hpassed := forIn_eq_ok ?_ h _ hk
    · simp only [hlimit] at hpassed
      split at hpassed
      next => cases hpassed
      next hle => omega
    · rintro ⟨k', group⟩ hdone
      simp only at hdone
      split at hdone
      · split at hdone
        · cases hdone
        · cases hdone
      · cases hdone

/-- Past the check of apps no app has more functions than the limit. -/
theorem apps_of_checkApps {limits : Limits} {groups : List (String × List (Request σ))}
    (h : checkApps limits groups = .ok ()) {limit : Int}
    (hlimit : limits.functionsPerApp = some limit) {key : String} {first : Request σ}
    {rest : List (Request σ)} (hmem : (key, first :: rest) ∈ groups)
    (htype : first.type = .str "functions") : ((first :: rest).length : Int) ≤ limit := by
  unfold checkApps at h
  simp only [hlimit] at h
  obtain ⟨_, h, -⟩ := bind_eq_ok.1 h
  have hpassed := forIn_eq_ok ?_ h _ hmem
  · have hsame : first.type.same (.str "functions") = true := (Value.same_str_iff _ _).2 htype
    simp only [List.head?_cons, Option.map_some, Option.getD_some, hsame, Bool.true_and] at hpassed
    split at hpassed
    next => cases hpassed
    next hle => simpa using hle
  · rintro ⟨k', group⟩ hdone
    simp only at hdone
    split at hdone
    · cases hdone
    · cases hdone

/-- Past the check of containers no account has more containers than the
limit. -/
theorem containers_of_checkContainers {limits : Limits} {requirements : List Requirement}
    (h : checkContainers limits requirements = .ok ()) {limit : Int}
    (hlimit : limits.containersPerStorage = some limit) {r : Requirement}
    (hmem : r ∈ requirements) (htype : r.type = .str "storage") :
    ∃ count, ((Fields.getD r.config "containers").orElse (.list [])).length = .ok count
      ∧ (count : Int) ≤ limit := by
  unfold checkContainers at h
  simp only [hlimit] at h
  obtain ⟨_, h, -⟩ := bind_eq_ok.1 h
  have hpassed := forIn_eq_ok ?_ h _ hmem
  · have hsame : r.type.same (.str "storage") = true := (Value.same_str_iff _ _).2 htype
    simp only [hsame, if_true] at hpassed
    obtain ⟨count, hcount, hpassed⟩ := bind_eq_ok.1 hpassed
    refine ⟨count, hcount, ?_⟩
    split at hpassed
    next => cases hpassed
    next hle => simpa using hle
  · intro r' hdone
    split at hdone
    · obtain ⟨count, -, hdone⟩ := bind_eq_ok.1 hdone
      split at hdone
      · cases hdone
      · cases hdone
    · cases hdone

/-- The check of the quotas passes only what is within them. -/
theorem within_of_checkLimits {b : Backend σ} {requests merged : List (Request σ)}
    (h : b.checkLimits merged (groups requests) = .ok ()) :
    Within b.config.limits requests merged := by
  obtain ⟨_, haccounts, h⟩ := bind_eq_ok.1 h
  obtain ⟨_, happs, hcontainers⟩ := bind_eq_ok.1 h
  refine ⟨?_, ?_, ?_⟩
  · intro type limit hlimit
    have hle := accounts_of_checkAccounts haccounts hlimit
    unfold Requirement.ofType at hle ⊢
    rw [List.filter_map, List.length_map] at hle
    exact hle
  · intro limit hlimit key first rest hmem htype
    exact apps_of_checkApps happs hlimit hmem htype
  · intro limit hlimit r hr htype
    exact containers_of_checkContainers hcontainers hlimit (List.mem_map.2 ⟨r, hr, rfl⟩) htype

/-- The check of accounts passes where every type is within its limit. -/
theorem checkAccounts_of_within {limits : Limits} {requirements : List Requirement}
    (named : ∀ r ∈ requirements, r.type.canName = true)
    (within : ∀ type limit, limits.accountLimit type = some limit →
      (Requirement.ofType (fun r => r) type requirements).length ≤ limit.toNat) :
    checkAccounts limits requirements = .ok () := by
  obtain ⟨groups, hgroups⟩ := (Requirement.groupByType_ok_iff (fun r => r)).2 named
  refine bind_eq_ok.2 ⟨groups, hgroups, bind_eq_ok.2 ⟨(), forIn_of_forall ?_, rfl⟩⟩
  rintro ⟨type, group⟩ hmem
  obtain ⟨hne, hsub⟩ := Requirement.of_mem_groupByType _ hgroups hmem
  dsimp only
  cases hlimit : limits.accountLimit type with
  | none => rfl
  | some limit =>
      have hpos := List.length_pos_of_ne_nil hne
      have hle := hsub.length_le.trans (within type limit hlimit)
      have hnot : ¬ limit < group.length := by omega
      dsimp only
      rw [if_neg hnot]
      rfl

/-- The check of apps passes where every app is within the limit. -/
theorem checkApps_of_within {limits : Limits} {requests : List (Request σ)}
    (within : ∀ limit, limits.functionsPerApp = some limit →
      ∀ key first rest, (key, first :: rest) ∈ groups requests →
        first.type = .str "functions" → ((first :: rest).length : Int) ≤ limit) :
    checkApps limits (groups requests) = .ok () := by
  unfold checkApps
  cases hlimit : limits.functionsPerApp with
  | none => rfl
  | some limit =>
      refine bind_eq_ok.2 ⟨(), forIn_of_forall ?_, rfl⟩
      rintro ⟨key, group⟩ hmem
      cases group with
      | nil => exact absurd rfl (Requirement.of_mem_groupByResourceKey _ hmem).2
      | cons first rest =>
          have hfits : ¬ ((first.type.same (.str "functions")
              && decide (limit < ((first :: rest).length : Int))) = true) := by
            rw [Bool.and_eq_true, Value.same_str_iff, decide_eq_true_eq, not_and, not_lt]
            exact within limit hlimit key first rest hmem
          dsimp only
          rw [List.head?_cons, Option.map_some, Option.getD_some, if_neg hfits]
          rfl

/-- The check of containers passes where every account is within the limit. -/
theorem checkContainers_of_within {limits : Limits} {requirements : List Requirement}
    (within : ∀ limit, limits.containersPerStorage = some limit →
      ∀ r ∈ requirements, r.type = .str "storage" →
        ∃ count, ((Fields.getD r.config "containers").orElse (.list [])).length = .ok count
          ∧ (count : Int) ≤ limit) :
    checkContainers limits requirements = .ok () := by
  unfold checkContainers
  cases hlimit : limits.containersPerStorage with
  | none => rfl
  | some limit =>
      refine bind_eq_ok.2 ⟨(), forIn_of_forall ?_, rfl⟩
      intro r hr
      by_cases hsame : r.type.same (.str "storage") = true
      · obtain ⟨count, hcount, hle⟩ := within limit hlimit r hr ((Value.same_str_iff _ _).1 hsame)
        have hnot : ¬ limit < (count : Int) := by omega
        rw [if_pos hsame]
        refine bind_eq_ok.2 ⟨count, hcount, ?_⟩
        rw [if_neg hnot]
        rfl
      · rw [if_neg hsame]
        rfl

/-- The check of the quotas passes exactly what is within them, if its types
can be counted at all. -/
theorem checkLimits_ok_iff {b : Backend σ} {requests merged : List (Request σ)} :
    b.checkLimits merged (groups requests) = .ok () ↔
      (∀ r ∈ merged, r.type.canName = true) ∧ Within b.config.limits requests merged := by
  constructor
  · intro h
    refine ⟨?_, within_of_checkLimits h⟩
    obtain ⟨_, haccounts, -⟩ := bind_eq_ok.1 h
    obtain ⟨groups, hgroups, -⟩ := bind_eq_ok.1 haccounts
    have hnamed := (Requirement.groupByType_ok_iff (fun r => r)).1 ⟨groups, hgroups⟩
    exact fun r hr => hnamed r.toRequirement (List.mem_map_of_mem hr)
  · rintro ⟨named, within⟩
    have hnamed : ∀ r ∈ merged.map Request.toRequirement, r.type.canName = true :=
      List.forall_mem_map.2 named
    have haccounts : ∀ type limit, b.config.limits.accountLimit type = some limit →
        (Requirement.ofType (fun r => r) type (merged.map Request.toRequirement)).length
          ≤ limit.toNat := by
      intro type limit hlimit
      have hle := within.accounts type limit hlimit
      unfold Requirement.ofType at hle ⊢
      rw [List.filter_map, List.length_map]
      exact hle
    have hcontainers : ∀ limit, b.config.limits.containersPerStorage = some limit →
        ∀ r ∈ merged.map Request.toRequirement, r.type = .str "storage" →
          ∃ count, ((Fields.getD r.config "containers").orElse (.list [])).length = .ok count
            ∧ (count : Int) ≤ limit := fun limit hlimit =>
      List.forall_mem_map.2 (within.containers limit hlimit)
    refine bind_eq_ok.2 ⟨(), checkAccounts_of_within hnamed haccounts, ?_⟩
    exact bind_eq_ok.2 ⟨(), checkApps_of_within within.apps, checkContainers_of_within hcontainers⟩

end Backend

/-- Quotas count, so the order of what they count does not matter. -/
theorem Within.perm {limits : Limits} {requests requests' merged merged' : List (Request σ)}
    (h : Within limits requests merged)
    (sameGroups : (Backend.groups requests).Perm (Backend.groups requests'))
    (sameMerged : merged.Perm merged') : Within limits requests' merged' where
  accounts type limit hlimit := by
    unfold Requirement.ofType
    rw [← (sameMerged.filter _).length_eq]
    exact h.accounts type limit hlimit
  apps limit hlimit key first rest hmem :=
    h.apps limit hlimit key first rest (sameGroups.symm.subset hmem)
  containers limit hlimit r hr := h.containers limit hlimit r (sameMerged.symm.subset hr)

-- ============================================================ children

/-- The work makes no child of the scope. -/
def KeepsChildren (w : SiteWork σ α) : Prop :=
  ∀ s, (w.run s).2.scope.children = s.scope.children

namespace KeepsChildren

/-- Work that goes on with more such work makes no child either. -/
theorem bind {β : Type} {w : SiteWork σ α} {k : α → SiteWork σ β} (h : KeepsChildren w)
    (hk : ∀ a, KeepsChildren (k a)) : KeepsChildren (w >>= k) := by
  intro s
  have hw := h s
  rw [run_bind]
  rcases hrun : w.run s with ⟨fault | a, s'⟩
  · rw [hrun] at hw
    exact hw
  · rw [hrun] at hw
    exact (hk a s').trans hw

/-- Work away from any scope makes no child. -/
theorem ofWork (w : Work σ α) : KeepsChildren (SiteWork.ofWork w) := fun _ => rfl

/-- Entering a phase and reporting on it make no child. -/
theorem inPhase {w : SiteWork σ α} (h : KeepsChildren w) (b : Backend σ) (phase : Phase) :
    KeepsChildren (b.inPhase phase w) := by
  intro s
  have hw := h (b.entering phase s)
  rw [Backend.run_inPhase]
  rcases hrun : w.run (b.entering phase s) with ⟨fault | a, s'⟩
  · rw [hrun] at hw
    exact hw
  · rw [hrun] at hw
    exact hw

end KeepsChildren

namespace Backend

/-- Up to the merge phase no child is made of the caller's scope. -/
theorem keepsChildren_prepared (b : Backend σ) (settings : Except Fault Settings) :
    KeepsChildren (b.prepared settings) := by
  have hcollect : KeepsChildren (b.collecting settings) := by
    exact .bind (fun _ => rfl) fun mark => .bind (fun _ => rfl) fun _ => .ofWork _
  refine .bind (hcollect.inPhase b .collect) fun requests => ?_
  refine .bind ((KeepsChildren.ofWork (b.checkRequests requests)).inPhase b .validate) fun _ => ?_
  refine .bind ((KeepsChildren.ofWork (b.mergeGroups requests)).inPhase b .merge) fun merged => ?_
  exact fun _ => rfl

/-- Up to the merge phase no child of the scope is made, whatever comes of
it. -/
theorem children_of_prepared {b : Backend σ} {settings : Except Fault Settings} {s s' : Site σ}
    {r : Except Fault (List (Request σ) × List (Request σ))}
    (h : (b.prepared settings).run (b.begun s) = (r, s')) :
    s'.scope.children = s.scope.children := by
  have hkeeps := b.keepsChildren_prepared settings (b.begun s)
  rw [h] at hkeeps
  exact hkeeps

-- =============================================================== calls

/-- A backend that no longer collects calls nothing when it is started. -/
theorem calls_of_ne {b : Backend σ} (hb : b.state ≠ .collecting)
    (settings : Except Fault Settings) (s : Site σ) : b.calls settings s = [] := by
  obtain ⟨why, h⟩ := start_run_of_ne (b := b.watched) hb settings (s.watched [])
  unfold calls
  rw [h]
  rfl

end Backend

/-- The requirement for which a resource is made by the call. -/
def Call.requirement? : Call → Option Requirement
  | .provide _ r _ => some r
  | _ => none

namespace Backend

/-- No call of the merge phase is for a resource. -/
theorem requirement?_merges {b : Backend σ} {groups : List (String × List (Request σ))}
    {merged : List (Request σ)} {merges : List Call} (h : Each (Merges b) groups merged merges) :
    merges.filterMap Call.requirement? = [] := by
  induction h with
  | nil => rfl
  | cons head tail ih =>
      rw [List.filterMap_append, ih]
      cases head with
      | single => rfl
      | several => rfl

/-- No call of a start is for a resource. -/
theorem requirement?_starts {resources : Resources} {entries : Keyed (Definition σ)}
    {components : Keyed (Component σ)} {starts : List Call}
    (h : Each (Starts resources) entries components starts) :
    starts.filterMap Call.requirement? = [] := by
  induction h with
  | nil => rfl
  | cons head tail ih =>
      rw [List.filterMap_append, ih]
      cases head with
      | mk => rfl

/-- The calls of provisioning are for the requirements in order, and the
resources come to stand under their keys. -/
theorem provisions_of_along {b : Backend σ} {context : Provisioning} {staged resources : Resources}
    {rs : List Requirement} {provisions : List Call}
    (h : Along (Provides b context) staged rs resources provisions)
    (distinct : (Table.keys staged).Nodup) :
    provisions.filterMap Call.requirement? = rs
      ∧ Table.keys resources
        = (Table.keys staged ++ rs.map Requirement.resourceKey).eraseDups := by
  induction h with
  | nil =>
      rw [List.map_nil, List.append_nil, eraseDups_of_nodup distinct]
      exact ⟨rfl, rfl⟩
  | cons head tail ih =>
      cases head with
      | mk found =>
          obtain ⟨hcalls, hkeys⟩ := ih (Table.nodup_keys_put distinct _ _)
          refine ⟨?_, ?_⟩
          · rw [List.filterMap_append, hcalls]
            rfl
          · rw [hkeys, Table.keys_put, List.map_cons]
            split
            next hin => rw [eraseDups_append_cons_of_mem hin]
            next => rw [List.append_assoc, List.singleton_append]

-- ========================================================= main result

/-- The keys of the resources that were made for requirements of a
type. -/
def keysOfType (type : Value) (merged : List (Request σ)) (resources : Resources) : List String :=
  (Table.keys resources).filter fun key =>
    key ∈ (Requirement.ofType Request.toRequirement type merged).map fun r => r.resourceKey

/-- There are no more resources of a type than requirements of it. -/
theorem length_keysOfType_le {resources : Resources} (distinct : (Table.keys resources).Nodup)
    (type : Value) (merged : List (Request σ)) :
    (keysOfType type merged resources).length
      ≤ (Requirement.ofType Request.toRequirement type merged).length := by
  have hsub : keysOfType type merged resources
      ⊆ (Requirement.ofType Request.toRequirement type merged).map fun r => r.resourceKey := by
    intro key hkey
    simpa using (List.mem_filter.1 hkey).2
  have hle := (List.subperm_of_subset (distinct.filter _) hsub).length_le
  rw [List.length_map] at hle
  exact hle

/-- Nothing is made unless everything before it passed. An initialisation
that fails while it collects, validates or merges makes no resource and no
child of the caller's scope; and so does one whose merged requirements are
not within the quotas, which fails. One that succeeds makes one resource
for each merged requirement, these are within the quotas, and so are the
resources that it publishes. -/
theorem start_provides_within_quotas (b : Backend σ) (settings : Except Fault Settings)
    (s : Site σ) :
    let after := (b.start settings).run s
    (∀ phase ∈ [Phase.collect, .validate, .merge], ∀ cause,
        after.1.1 = .error (.initializationFailure b.id (.str phase.name) cause) →
        (∀ c ∈ b.calls settings s, ¬ c.Provides)
          ∧ after.2.scope.children = s.scope.children)
    ∧ (∀ requests merged s₁,
        (b.prepared settings).run (b.begun s) = (.ok (requests, merged), s₁) →
        ¬ Within b.config.limits requests merged →
        (∃ fault, after.1.1 = .error fault)
          ∧ (∀ c ∈ b.calls settings s, ¬ c.Provides)
          ∧ after.2.scope.children = s.scope.children)
    ∧ ∀ summary, after.1.1 = .ok summary → ∃ requests merged s₁,
        (b.prepared settings).run (b.begun s) = (.ok (requests, merged), s₁)
          ∧ Within b.config.limits requests merged
          ∧ (b.calls settings s).filterMap Call.requirement? = merged.map Request.toRequirement
          ∧ (Table.keys after.1.2.resources)
            = (merged.map fun r => r.resourceKey).eraseDups
          ∧ ∀ type limit, b.config.limits.accountLimit type = some limit →
            (keysOfType type merged after.1.2.resources).length ≤ limit.toNat := by
  intro after
  by_cases hb : b.state = .collecting
  · refine ⟨?_, ?_, ?_⟩
    · intro phase hphase cause hfailed
      obtain ⟨-, phase', cause', s', hstop, hfault, hafter⟩ :=
        (start_error_iff hb).1 (Prod.ext (Prod.ext hfailed rfl) rfl)
      have hsame := phase_of_initializationFailure hfault
      subst hsame
      have hprepared := prepared_error_iff.2 ⟨phase, hphase, cause', s', hstop, rfl, rfl⟩
      refine ⟨harmless_of_prepared_error hb hprepared, ?_⟩
      have hscope : after.2 = b.reporting phase cause' s' := hafter
      rw [hscope]
      exact children_of_prepared hprepared
    · intro requests merged s₁ hprepared hexceeds
      have hlimits : ∃ fault, b.checkLimits merged (groups requests) = .error fault := by
        cases h : b.checkLimits merged (groups requests) with
        | error fault => exact ⟨fault, rfl⟩
        | ok u => exact absurd (within_of_checkLimits h) hexceeds
      obtain ⟨fault, hlimits⟩ := hlimits
      have hstop : StopsIn b settings (b.begun s) .provision fault (b.entering .provision s₁) := by
        refine .provision hprepared ?_
        simp only [provisionAll, hlimits, run_bind, SiteWork.run_ofExcept]
      have hstart := (start_error_iff hb).2 ⟨rfl, .provision, fault, _, hstop, rfl, rfl⟩
      have hafter : after = _ := hstart
      have hscope : after.2.scope = s₁.scope := by
        rw [hafter]
        rfl
      rw [hscope]
      refine ⟨⟨.initializationFailure b.id (.str Phase.provision.name) fault, ?_⟩,
        harmless_of_checkLimits_error hb hprepared hlimits, children_of_prepared hprepared⟩
      rw [hafter]
    · intro summary hok
      obtain ⟨p, s', hrun, -, hb', -⟩ :=
        (start_ok_iff hb).1 (Prod.ext (Prod.ext hok rfl) rfl)
      obtain ⟨course⟩ := exists_course hb hrun
      obtain ⟨s₁, hprepared⟩ := course.prepared
      obtain ⟨hcalls, hkeys⟩ := provisions_of_along course.providing List.nodup_nil
      have hwithin := within_of_checkLimits course.within
      have hresources : after.1.2.resources = p.resources := congrArg Backend.resources hb'
      rw [hresources]
      refine ⟨course.requests, course.merged, s₁, hprepared, hwithin, ?_, ?_, ?_⟩
      · have hcreations : (b.creations (.resources [])).filterMap Call.requirement? = [] := by
          unfold creations
          rw [List.filterMap_map]
          exact List.filterMap_eq_nil_iff.2 fun _ _ => rfl
        simp only [course.calls_eq, List.filterMap_append, hcreations, hcalls,
          requirement?_merges course.merging, requirement?_starts course.starting,
          List.nil_append, List.append_nil]
      · rw [hkeys, List.map_map]
        rfl
      · intro type limit hlimit
        have hdistinct : (Table.keys p.resources).Nodup := by
          rw [hkeys]
          exact nodup_eraseDups _
        exact (length_keysOfType_le hdistinct type course.merged).trans
          (hwithin.accounts type limit hlimit)
  · -- a backend that no longer collects does nothing at all
    obtain ⟨why, hstart⟩ := start_run_of_ne hb settings s
    have hafter : after = _ := hstart
    have hcalls := calls_of_ne hb settings s
    rw [hafter, hcalls]
    refine ⟨?_, ?_, ?_⟩
    · exact fun _ _ _ _ => ⟨by simp, rfl⟩
    · exact fun _ _ _ _ _ => ⟨⟨_, rfl⟩, by simp, rfl⟩
    · intro summary hok
      cases hok

/-- A component that asks for a storage account. -/
def storageUser : Definition Unit where
  id := .str "api"
  type := some (.str "service")
  factory := fun id _ resources => pure (.component {
    id := id
    type := .str "service"
    managed := true
    scope := .str "root"
    resources := resources
    declare := pure [.request ⟨⟨.str "storage", .str "main", [], .null, .absent⟩, []⟩]
    start := fun _ => pure ()
    ownCheck := fun _ => pure none })

/-- A provider that can always make a storage account. -/
def storageKeeper : Provider Unit where
  id := some (.str "keeper")
  types := .list [.str "storage"]
  canProvide := fun _ => pure true
  merge := fun
    | first :: _ => pure first
    | [] => throw (.noPosition "nothing to merge")
  validateMerged := fun _ => pure .ok
  provide := fun _ _ => pure (.value (.str "account"))

/-- A backend with a limit on storage accounts and a component that asks
for one. -/
def capped (limit : Int) : Backend Unit where
  id := .str "app"
  config := { limits := { storageAccounts := some limit } }
  registry := ⟨[(.str "keeper", storageKeeper)], [(.str "storage", [.str "keeper"])]⟩
  definitions := [(.str "api", storageUser)]

/-- Without settings nothing is made, nor under a limit of zero; under a
limit of one there is one storage account. -/
theorem capped_provides_up_to_limit :
    let site : Site Unit := ⟨⟨(), []⟩, .node (.str "root") (.str "root") [] []⟩
    let unset : Except Fault Settings := .error (.badValue "no settings")
    let after := fun limit settings => ((capped limit).start settings).run site
    (∀ c ∈ (capped 1).calls unset site, ¬ c.Provides)
    ∧ (∃ fault, (after 0 (.ok {})).1.1 = .error fault)
    ∧ (∀ c ∈ (capped 0).calls (.ok {}) site, ¬ c.Provides)
    ∧ (after 0 (.ok {})).2.scope.children = []
    ∧ Table.keys (after 1 (.ok {})).1.2.resources = ["storage:main"]
    ∧ ∃ merged : List (Request Unit),
        (keysOfType (.str "storage") merged (after 1 (.ok {})).1.2.resources).length ≤ 1 := by
  intro site unset after
  have stopped : (after 1 unset).1.1 = .error (.initializationFailure (.str "app")
      (.str Phase.collect.name) (.badValue "no settings")) := rfl
  have quiet := (start_provides_within_quotas (capped 1) unset site).1 .collect (by simp) _ stopped
  have one : (((capped 0).prepared (.ok {})).run ((capped 0).begun site)).1.toOption.map
      (fun r => (Requirement.ofType Request.toRequirement (.str "storage") r.2).length)
        = some 1 := rfl
  rcases hprepared : ((capped 0).prepared (.ok {})).run ((capped 0).begun site)
    with ⟨fault | ⟨requests, merged⟩, s₁⟩
  · rw [hprepared] at one
    cases one
  · rw [hprepared] at one
    have exceeds : ¬ Within (capped 0).config.limits requests merged := by
      intro within
      have hle := within.accounts (.str "storage") 0 rfl
      have hone : (Requirement.ofType Request.toRequirement (.str "storage") merged).length = 1 :=
        Option.some.inj one
      rw [hone] at hle
      exact absurd hle (by decide)
    have refused := (start_provides_within_quotas (capped 0) (.ok {}) site).2.1
      requests merged s₁ hprepared exceeds
    have published : (after 1 (.ok {})).1.1
        = .ok ⟨.str "app", [.str "api"], ["storage:main"]⟩ := rfl
    obtain ⟨_, merged', _, -, -, -, -, hkeys⟩ :=
      (start_provides_within_quotas (capped 1) (.ok {}) site).2.2 _ published
    exact ⟨quiet.1, refused.1, refused.2.1, refused.2.2, rfl, merged',
      hkeys (.str "storage") 1 rfl⟩

end Backend

end Depot
