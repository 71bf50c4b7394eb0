/-
How resources come to be. Each resource that is published has a
`Service`: the requests that name it, the one request that they were
merged into, and the provider. `Served` says what a service is like, and
`served_of` that the steps of an initialisation are like that. The steps
look for a provider again and again, when they merge, when they provision;
what they find is the same, because merging keeps the type and the key and
providers ask for nothing else.

The main result reads a whole initialisation as a list of services. The
calls that were made, their order, what each of them was shown, and what
was published are all functions of that list.
-/
import Depot.Proofs.Backend.Repeatable
import Depot.Proofs.Watching.Run

namespace Depot

variable {σ : Type}

-- ============================================================ services

/-- A resource and how it came to be. -/
structure Service (σ : Type) where
  key : String
  group : List (Request σ)
  merged : Request σ
  provider : Provider σ

namespace Service

/-- The call that merges the group, unless it has one member. -/
def merges (v : Service σ) : List Call :=
  if v.group.length = 1 then []
  else [.merge v.provider.id (v.group.map Request.toRequirement)]

/-- The call that makes the resource where others were made before. -/
def provides (context : Provisioning) (existing : Resources) (v : Service σ) : Call :=
  .provide v.provider.id v.merged.toRequirement { context with existing := existing }

end Service

/-- What the service of a resource is like. -/
structure Served (b : Backend σ) (requests : List (Request σ)) (v : Service σ) : Prop where
  /-- The group is all requests for the resource. -/
  group_eq : v.group = Requirement.sharing Request.toRequirement v.key requests
  /-- The group has one member, or its provider merged it. -/
  merged_eq : v.group = [v.merged]
    ∨ 2 ≤ v.group.length ∧ ∃ d d', (v.provider.merge v.group).run d = (.ok v.merged, d')
  /-- Merging did not change which resource it is. -/
  named : v.merged.resourceKey = v.key
  /-- The provider is the first that can supply the merged requirement. -/
  capable : b.registry.FirstCapable v.merged.toRequirement v.provider
  /-- It is the first that can supply what the group asked for. -/
  asked : ∃ first ∈ v.group.head?, b.registry.FirstCapable first.toRequirement v.provider

namespace Backend

section Promises

variable {b : Backend σ} (indexed : b.registry.Indexed)
  (asks : ∀ p ∈ b.registry.all, p.AsksTypeAndKey)
  (keeps : ∀ p ∈ b.registry.all, p.KeepsTypeAndKey)

include indexed asks keeps in
/-- The steps for one group are a service of its resource. -/
theorem served_of {requests : List (Request σ)} {group : String × List (Request σ)}
    {merged : Request σ} {merges : List Call} (hmerge : Merges b group merged merges)
    (hgroup : group ∈ groups requests) {p : Provider σ} {d d' : Desk σ}
    (found : (b.registry.find merged.toRequirement).run d = (.ok p, d')) :
    Served b requests ⟨group.1, group.2, merged, p⟩
      ∧ merges = Service.merges ⟨group.1, group.2, merged, p⟩ := by
  obtain ⟨key, members⟩ := group
  have hmembers := (Requirement.of_mem_groupByResourceKey _ hgroup).1
  have hcapable := Registry.find_ok indexed asks found
  cases hmerge with
  | single alone =>
      dsimp only at alone
      subst alone
      have hnamed : merged.resourceKey = key :=
        Requirement.resourceKey_of_mem_sharing _ (hmembers ▸ List.mem_singleton_self merged)
      exact ⟨⟨hmembers, .inl rfl, hnamed, hcapable, merged, rfl, hcapable⟩, rfl⟩
  | @several first second rest q d₀ d₁ e e' _ several foundFirst merging =>
      dsimp only at several
      subst several
      have hfirst := Registry.find_ok indexed asks foundFirst
      have hq : q ∈ b.registry.all := by
        obtain ⟨before, after, hall, -⟩ := hfirst
        rw [hall]
        exact List.mem_append_right _ (List.mem_cons_self ..)
      -- merging kept the type and the key, so both searches found the same
      obtain ⟨htype, hkey⟩ := keeps q hq first (second :: rest) e e' merged merging
      have hsame : q = p :=
        hfirst.unique d (hcapable.congr asks htype hkey)
      subst hsame
      have hnamed : merged.resourceKey = key := by
        rw [(keeps q hq).resourceKey merging]
        exact Requirement.resourceKey_of_mem_sharing _ (hmembers ▸ List.mem_cons_self ..)
      refine ⟨⟨hmembers, .inr ⟨by simp, e, e', merging⟩, hnamed, hcapable, first, rfl, hfirst⟩, ?_⟩
      simp [Service.merges]

include indexed asks keeps in
/-- The steps for all groups are services, and the resources come to stand
under their keys. Each was made when those before it stood there. -/
theorem services_of {requests : List (Request σ)} {context : Provisioning}
    {gs : List (String × List (Request σ))} {merged : List (Request σ)} {merges : List Call}
    (hmerge : Each (Merges b) gs merged merges) (hgs : ∀ g ∈ gs, g ∈ groups requests)
    (distinct : (gs.map Prod.fst).Nodup) {staged resources : Resources} {provisions : List Call}
    (fresh : ∀ g ∈ gs, g.1 ∉ Table.keys staged)
    (hprovide : Along (Provides b context) staged (merged.map Request.toRequirement) resources
      provisions) :
    ∃ services : List (Service σ), services.map (fun v => (v.key, v.group)) = gs
      ∧ (∀ v ∈ services, Served b requests v)
      ∧ merges = services.flatMap Service.merges
      ∧ provisions = (services.zipIdx staged.length).map
          (fun v => v.1.provides context (resources.take v.2))
      ∧ Table.keys resources = Table.keys staged ++ services.map Service.key
      ∧ resources.take staged.length = staged := by
  induction hmerge generalizing staged provisions with
  | nil =>
      cases hprovide
      exact ⟨[], rfl, by simp, rfl, rfl, by simp, List.take_length⟩
  | @cons group m first gs ms rest head tail ih =>
      obtain ⟨hnew, hdistinct⟩ := List.nodup_cons.1 distinct
      cases hprovide with
      | cons one others =>
          cases one with
          | @mk p e e' resource found =>
              obtain ⟨hserved, hfirst⟩ :=
                served_of indexed asks keeps head (hgs group (by simp)) found
              have hkey : m.resourceKey = group.1 := hserved.named
              -- the key is new, so the resource goes to the end
              have hstaged : Table.put m.resourceKey resource staged
                  = staged ++ [(group.1, resource)] := by
                rw [hkey]
                exact Table.put_of_notMem (fresh group (by simp)) resource
              rw [show m.toRequirement.resourceKey = m.resourceKey from rfl, hstaged] at others
              have hnext : Table.keys (staged ++ [(group.1, resource)])
                  = Table.keys staged ++ [group.1] := List.map_append
              have hfresh := Table.fresh_concat hnew fresh resource
              obtain ⟨services, hservices, hall, hrest, hprovisions, hkeys, htake⟩ :=
                ih (fun g hg => hgs g (by simp [hg])) hdistinct hfresh others
              rw [List.length_append, List.length_singleton] at hprovisions htake
              have hbefore : resources.take staged.length = staged := by
                have hshort := congrArg (List.take staged.length) htake
                rw [List.take_take, Nat.min_eq_left (Nat.le_succ _), List.take_left] at hshort
                exact hshort
              refine ⟨⟨group.1, group.2, m, p⟩ :: services, ?_, ?_, ?_, ?_, ?_, hbefore⟩
              · rw [List.map_cons, hservices]
              · intro v hv
                rcases List.mem_cons.1 hv with rfl | hv
                · exact hserved
                · exact hall v hv
              · rw [List.flatMap_cons, hfirst, hrest]
              · rw [List.zipIdx_cons, List.map_cons, hprovisions]
                dsimp only [Service.provides]
                rw [hbefore]
                rfl
              · rw [hkeys, hnext, List.append_assoc]
                rfl

end Promises

/-- The calls that start components: each is made with all resources, and
then started with them. -/
def startings (resources : Resources) (components : Keyed (Component σ)) : List Call :=
  components.flatMap fun e =>
    [.create e.1 (.resources resources), .start e.2.id (.resources resources)]

/-- Components come from their definitions, in order. -/
theorem startings_of_each {resources : Resources} {entries : Keyed (Definition σ)}
    {components : Keyed (Component σ)} {starts : List Call}
    (h : Each (Starts resources) entries components starts)
    (named : ∀ e ∈ entries, e.1 = e.2.id) :
    components.keys = entries.keys ∧ starts = startings resources components
      ∧ ∀ e ∈ components, e.2.initialized = true ∧ e.2.resources = .resources resources := by
  induction h with
  | nil => exact ⟨rfl, rfl, by simp⟩
  | @cons entry y first entries components rest head tail ih =>
      obtain ⟨hkeys, hrest, hall⟩ := ih fun e he => named e (by simp [he])
      cases head with
      | @mk c initialized given =>
          refine ⟨?_, ?_, ?_⟩
          · show entry.1 :: Keyed.keys components = entry.1 :: Keyed.keys entries
            rw [hkeys]
          · rw [hrest, ← named entry (by simp)]
            rfl
          · intro e he
            rcases List.mem_cons.1 he with rfl | he
            · exact ⟨initialized, given⟩
            · exact hall e he

-- ========================================================= main result

/-- Each resource is made exactly once. Of a backend that was made and used
in any way, whose providers ask for nothing but type and key and keep them
when they merge, an initialisation that succeeds is a list of services,
one for each distinct key of the collected requests in the order of first
occurrence. The calls are: each factory once to learn what is required;
one merge for each group with several members; one call for each service,
by the provider that merged the group and is the first that can supply it,
where call `k` sees the first `k` resources; and for each definition, in
order, one call that makes the component and one that starts it, both with
all resources. What is published stands under the same keys in the same
order. -/
theorem each_resource_is_made_once {b : Backend σ} (reachable : b.Reachable)
    (asks : ∀ p ∈ b.registry.all, p.AsksTypeAndKey)
    (keeps : ∀ p ∈ b.registry.all, p.KeepsTypeAndKey)
    {settings : Except Fault Settings} {s s' : Site σ} {summary : Summary} {b' : Backend σ}
    (started : (b.start settings).run s = ((.ok summary, b'), s')) :
    ∃ (requests : List (Request σ)) (context : Provisioning) (services : List (Service σ)),
      (∃ s₁, (b.collected settings).run (b.begun s) = (.ok requests, s₁))
      ∧ b.provisioning settings = .ok context
      ∧ (∀ v ∈ services, Served b requests v)
      ∧ services.map Service.key = (requests.map fun r => r.resourceKey).eraseDups
      ∧ b.calls settings s
        = b.creations (.resources [])
          ++ services.flatMap Service.merges
          ++ services.zipIdx.map (fun v => v.1.provides context (b'.resources.take v.2))
          ++ startings b'.resources b'.components
      ∧ Table.keys b'.resources = services.map Service.key
      ∧ b'.components.keys = b.definitions.keys
      ∧ ∀ e ∈ b'.components,
        e.2.initialized = true ∧ e.2.resources = .resources b'.resources := by
  have coherent := reachable.coherent
  have hb : b.state = .collecting := by
    by_contra hne
    obtain ⟨why, hrefused⟩ := start_run_of_ne hne settings s
    rw [started] at hrefused
    cases hrefused
  obtain ⟨p, s₂, hrun, -, rfl, -⟩ := (start_ok_iff hb).1 started
  obtain ⟨course⟩ := exists_course hb hrun
  obtain ⟨s₃, hprepared⟩ := course.prepared
  have hkeys : (groups course.requests).map Prod.fst
      = (course.requests.map fun r => r.resourceKey).eraseDups :=
    Requirement.keys_groupByResourceKey Request.toRequirement course.requests
  have hdistinct : ((groups course.requests).map Prod.fst).Nodup := by
    rw [hkeys]
    exact nodup_eraseDups _
  obtain ⟨services, hservices, hserved, hmerges, hprovisions, hpublished, -⟩ :=
    services_of coherent.indexed asks keeps course.merging (fun g hg => hg) hdistinct
      (fun g _ => List.not_mem_nil) course.providing
  have hkeyed : services.map Service.key = (groups course.requests).map Prod.fst := by
    rw [← hservices, List.map_map]
    rfl
  obtain ⟨hcomponents, hstarts, hstarted⟩ :=
    startings_of_each course.starting fun e he => (coherent.named e he).1
  refine ⟨course.requests, course.context, services, collected_of_prepared hprepared,
    course.reading, hserved, hkeyed.trans hkeys, ?_, hpublished, hcomponents, hstarted⟩
  rw [course.calls_eq, hmerges, hprovisions, hstarts]
  rfl

/-- Accounts, whose configurations are put together. -/
def accounts : Kind Unit Fields where
  id := .str "accounts"
  type := .str "account"
  types := [.str "account"]
  read := .ok
  write := fun config => config
  check := fun _ => .ok .ok
  mergeGroup := fun rs => (.ok (rs.flatMap fun r => r.config), [])
  make := fun name _ _ => pure (.value (.str name))

/-- Two components that share an account get it from one call; an account
that only one of them asks for gets one of its own. -/
theorem shared_account_is_made_once :
    let config : Config Unit := { providers := some [.provider accounts.provider] }
    let made : Backend Unit := ⟨.str "app", config, (({} : Registry Unit).register
      (.provider accounts.provider)).1, [], .collecting, [], []⟩
    let b := (Session.run ⟨made, ⟨(), []⟩⟩ [.add (.definition (accountUser "api" ["main"])),
      .add (.definition (accountUser "worker" ["main", "logs"]))]).backend
    let site : Site Unit := ⟨⟨(), []⟩, .node (.str "root") (.str "root") [] []⟩
    b.Reachable ∧ ∃ (requests : List (Request Unit)) (context : Provisioning)
        (services : List (Service Unit)) (b' : Backend Unit),
      ((b.start (.ok {})).run site).1.2 = b'
        ∧ (∀ v ∈ services, Served b requests v)
        ∧ services.map Service.key = ["account:main", "account:logs"]
        ∧ b.calls (.ok {}) site
          = b.creations (.resources [])
            ++ services.flatMap Service.merges
            ++ services.zipIdx.map (fun v => v.1.provides context (b'.resources.take v.2))
            ++ startings b'.resources b'.components := by
  intro config made b site
  have reachable : b.Reachable := ⟨.str "app", config, made, _, ⟨(), []⟩, _, rfl, rfl⟩
  have providers : b.registry.all = [accounts.provider] := rfl
  have asks : ∀ p ∈ b.registry.all, p.AsksTypeAndKey := by
    rw [providers]
    intro p hp
    rw [List.mem_singleton.1 hp]
    exact accounts.asksTypeAndKey
  have keeps : ∀ p ∈ b.registry.all, p.KeepsTypeAndKey := by
    rw [providers]
    intro p hp
    rw [List.mem_singleton.1 hp]
    exact accounts.keepsTypeAndKey
  have outcome : (fun r : (Except Fault Summary × Backend Unit) × Site Unit =>
      (r.1.1.toOption.isSome, Table.keys r.1.2.resources)) ((b.start (.ok {})).run site)
        = (true, ["account:main", "account:logs"]) := rfl
  rcases started : (b.start (.ok {})).run site with ⟨⟨fault | summary, b'⟩, s'⟩
  · rw [started] at outcome
    cases outcome
  · rw [started] at outcome
    injection outcome with _ published
    obtain ⟨requests, context, services, -, -, hserved, -, hcalls, hkeys, -⟩ :=
      each_resource_is_made_once reachable asks keeps started
    exact ⟨reachable, requests, context, services, b', rfl, hserved,
      hkeys.symm.trans published, hcalls⟩

end Backend

end Depot
