/-
What the components of an initialised backend say about their resources. A
component without a check of its own asks for a resource under the key of
each requirement that it declares. Where it declares the same each time,
and merging does not change the keys, there is such a resource: what is
collected was declared, each key that was collected is one that is merged,
and each key that is merged is one that is provisioned
(`has_of_declared`).

So what such a backend validates is decided by what its components declare
(`answer_validate`). Requests are satisfied. A plain mapping is not asked
for a key when it is collected, since a request is made of it; but the
check asks for one, and a mapping has none.
-/
import Depot.Proofs.Backend.Collecting
import Depot.Proofs.Backend.Service

namespace Depot

variable {σ : Type}

-- =========================================================== promises

/-- What the provider merges stands for the resource that the first request
is for. -/
def Provider.KeepsResourceKey (p : Provider σ) : Prop :=
  ∀ first rest d d' merged, (p.merge (first :: rest)).run d = (.ok merged, d') →
    merged.resourceKey = first.resourceKey

theorem Provider.KeepsTypeAndKey.keepsResourceKey {p : Provider σ} (h : p.KeepsTypeAndKey) :
    p.KeepsResourceKey := fun _ _ _ _ _ hrun => h.resourceKey hrun

/-- A component that declares the same whenever it is asked and has no check
of its own. -/
structure Component.Declares (c : Component σ) (declared : List (Declared σ)) : Prop where
  declares : ∀ d, c.declare.answer d = .ok declared
  unchecked : ∀ resources d, (c.ownCheck resources).answer d = .ok none

/-- Whatever the factory makes declares the same. -/
def Definition.Declares (d : Definition σ) (declared : List (Declared σ)) : Prop :=
  ∀ resources s s' c, (d.create resources).run s = (.ok c, s') → c.Declares declared

-- ========================================================== one check

/-- The value that a component declared in the place of a request. -/
def Declared.plain? : Declared σ → Option Value
  | .request _ => none
  | .plain v => some v

namespace Component

/-- Where each request has a resource, the check ends at the first plain
value, if there is one. -/
theorem allPresent_eq {declared : List (Declared σ)} {isThere : String → Except Fault Bool}
    (there : ∀ r, .request r ∈ declared → isThere r.resourceKey = .ok true) :
    allPresent declared isThere = match declared.findSome? Declared.plain? with
      | none => .ok (.ofTexts [])
      | some v => .error (v.lacks "resource_key") := by
  unfold allPresent
  have hmissing : (declared.filterMapM fun d => do
        let key ← d.resourceKey
        return if ← isThere key then none else some s!"Missing resource {key}")
      = match declared.findSome? Declared.plain? with
        | none => .ok []
        | some v => .error (v.lacks "resource_key") := by
    induction declared with
    | nil => rfl
    | cons d declared ih =>
        have ih := ih fun r hr => there r (by simp [hr])
        rw [List.filterMapM_cons]
        cases d with
        | request r =>
            have hfound : (do
                let key ← (Declared.request r).resourceKey
                return if ← isThere key then none else some s!"Missing resource {key}")
                = (.ok none : Except Fault (Option String)) := by
              show (do return if ← isThere r.resourceKey then none else some _) = _
              rw [there r (by simp)]
              rfl
            rw [hfound]
            exact ih
        | plain v => rfl
  rw [hmissing]
  cases declared.findSome? Declared.plain? with
  | none => rfl
  | some v => rfl

/-- A component without a check of its own looks for what it declared, in
order. -/
theorem answer_validateResources {c : Component σ} {declared : List (Declared σ)}
    (h : c.Declares declared) (resources : Supply) (d : Desk σ) :
    (c.validateResources resources).answer d
      = allPresent declared fun key => resources.has key := by
  obtain ⟨d₁, hcheck⟩ := Work.run_of_answer (h.unchecked resources d)
  obtain ⟨d₂, hdeclared⟩ := Work.run_of_answer (h.declares d₁)
  unfold validateResources Work.answer
  rw [run_bind_of_ok hcheck]
  dsimp only
  rw [run_bind_of_ok hdeclared, Work.run_ofExcept]

end Component

namespace Backend

variable {b : Backend σ}

-- ========================================================= components

/-- The component that is started stands under its id and declares what its
definition does. -/
theorem run_startOne_ok {resources : Resources} {entry : Value × Definition σ} {s s' : Site σ}
    {made : Value × Component σ} (h : (b.startOne resources entry).run s = (.ok made, s'))
    {declared : List (Declared σ)} (declares : entry.2.Declares declared) :
    made.1 = entry.1 ∧ made.2.Declares declared := by
  obtain ⟨c, s₁, hmade, h⟩ := run_bind_ok.1 h
  obtain ⟨_, s₂, -, h⟩ := run_bind_ok.1 h
  cases h
  obtain ⟨made, s₃, hcreate, hactivate⟩ := run_bind_ok.1 (SiteWork.run_rephrase_ok.1 hmade)
  obtain ⟨_, s₄, -, hactivate⟩ := run_bind_ok.1 hactivate
  cases hactivate
  have hdeclares := declares _ _ _ _ hcreate
  exact ⟨rfl, hdeclares.declares, hdeclares.unchecked⟩

-- ========================================================= collecting

/-- What a definition hands over is what it declares, as requests. -/
theorem requested_of_declares {definition : Definition σ} {declared : List (Declared σ)}
    (declares : definition.Declares declared) {scope : Scope} {requests : List (Request σ)}
    {d d' : Desk σ} (h : (Work.inScope scope definition.declared).run d = (.ok requests, d')) :
    declared.mapM Declared.toRequest = .ok requests := by
  rw [Work.run_inScope] at h
  injection h with hrun
  obtain ⟨c, s, hcreate, h⟩ := run_bind_ok.1 (Prod.ext hrun rfl)
  obtain ⟨again, s', hagain, h⟩ := run_bind_ok.1 h
  rw [SiteWork.run_ofWork] at hagain
  injection hagain with hagain
  injection h with h
  have hdeclared := (declares _ _ _ _ hcreate).declares s.toDesk
  have hsame : declared = again := Except.ok.inj (hdeclared.symm.trans hagain)
  rw [hsame]
  exact h

/-- A source has no part in the resource key. -/
theorem resourceKey_of_withSource {r q : Request σ} {id : Value} (h : r.withSource id = .ok q) :
    q.resourceKey = r.resourceKey := by
  obtain ⟨sourced, hsourced, h⟩ := bind_eq_ok.1 h
  cases h
  obtain ⟨provenance, -, h⟩ := bind_eq_ok.1 hsourced
  cases h
  rfl

/-- What an entry declares is among the collected requests. -/
theorem collected_of_declared {mark : BackendMark} {arena : Scope}
    {entries : Keyed (Definition σ)} {requests : List (Request σ)} {d d' : Desk σ}
    (h : (b.collectFrom mark arena entries).run d = (.ok requests, d'))
    {entry : Value × Definition σ} (hentry : entry ∈ entries) {declared : List (Declared σ)}
    (declares : entry.2.Declares declared) {r : Request σ} (hr : .request r ∈ declared) :
    ∃ q ∈ requests, q.resourceKey = r.resourceKey := by
  obtain ⟨-, parts, requires, rfl⟩ := run_collectFrom_ok h
  obtain ⟨own, ⟨requested, ⟨d₀, hrequested⟩, hsourced⟩, hown⟩ :=
    exists_requires_of_mem requires hentry
  have hdeclared := requested_of_declares declares (Prod.ext hrequested rfl)
  obtain ⟨q, hq, hmade⟩ := mem_of_mapM_ok hdeclared hr
  cases hmade
  obtain ⟨q', hq', hsource⟩ := mem_of_mapM_ok hsourced hq
  exact ⟨q', hown q' hq', resourceKey_of_withSource hsource⟩

-- ============================================================ merging

/-- A group merges to a request for its own key. -/
theorem resourceKey_of_merges (keeps : ∀ p ∈ b.registry.all, p.KeepsResourceKey)
    {group : String × List (Request σ)} {merged : Request σ} {calls : List Call}
    (h : Merges b group merged calls) (members : ∀ r ∈ group.2, r.resourceKey = group.1) :
    merged.resourceKey = group.1 := by
  cases h with
  | single alone => exact members merged (by simp [alone])
  | @several first second rest p d₀ d₁ d d' _ several found merging =>
      have hp := Registry.mem_of_gives_find (Work.gives_of_run found)
      rw [several] at merging
      rw [keeps p hp first (second :: rest) d d' merged merging]
      exact members first (by simp [several])

-- ======================================================= provisioning

/-- What was there, or was required, is there after provisioning. -/
theorem mem_keys_of_along {context : Provisioning} {staged resources : Resources}
    {rs : List Requirement} {calls : List Call}
    (h : Along (Provides b context) staged rs resources calls) {key : String}
    (hkey : key ∈ Table.keys staged ∨ ∃ r ∈ rs, r.resourceKey = key) :
    key ∈ Table.keys resources := by
  induction h with
  | nil => simpa using hkey
  | @cons staged r staged' first rs resources rest head tail ih =>
      refine ih ?_
      cases head with
      | mk found =>
          rw [Table.mem_keys_put]
          rcases hkey with hkey | ⟨q, hq, rfl⟩
          · exact .inl (.inr hkey)
          · rcases List.mem_cons.1 hq with rfl | hq
            · exact .inl (.inl rfl)
            · exact .inr ⟨q, hq, rfl⟩

/-- There is a resource for each request that a component declares. -/
theorem has_of_declared (keeps : ∀ p ∈ b.registry.all, p.KeepsResourceKey)
    {settings : Except Fault Settings} {s : Site σ} {p : Published σ}
    (course : Course b settings s p) {entry : Value × Definition σ}
    (hentry : entry ∈ b.definitions) {declared : List (Declared σ)}
    (declares : entry.2.Declares declared) {r : Request σ} (hr : .request r ∈ declared) :
    p.resources.has r.resourceKey = true := by
  obtain ⟨s₁, hprepared⟩ := course.prepared
  obtain ⟨s₂, hcollected⟩ := collected_of_prepared hprepared
  obtain ⟨mark, s₃, -, hcollecting⟩ := run_bind_ok.1 (run_inPhase_ok.1 hcollected)
  obtain ⟨_, s₄, -, hcollecting⟩ := run_bind_ok.1 hcollecting
  obtain ⟨d, hcollect, -⟩ := SiteWork.run_ofWork_ok.1 hcollecting
  obtain ⟨arena, d₁, -, hrequests, -⟩ := run_collect_ok hcollect
  -- the key is collected, so there is a group of it
  obtain ⟨q, hq, hkey⟩ := collected_of_declared hrequests hentry declares hr
  have hgroup : (q.resourceKey, Requirement.sharing Request.toRequirement q.resourceKey
      course.requests) ∈ groups course.requests := by
    unfold groups
    rw [Requirement.groupByResourceKey_eq]
    exact List.mem_map.2
      ⟨q.resourceKey, List.mem_eraseDups.2 (List.mem_map.2 ⟨q, hq, rfl⟩), rfl⟩
  -- what the group is merged to has the key, and is provisioned under it
  obtain ⟨merged, hmerged, own, hmerge⟩ := course.merging.exists_of_mem hgroup
  have hnamed : merged.resourceKey = q.resourceKey :=
    resourceKey_of_merges keeps hmerge fun r hr => Requirement.resourceKey_of_mem_sharing _ hr
  rw [Table.has_iff, ← hkey, ← hnamed]
  refine mem_keys_of_along course.providing (.inr ?_)
  exact ⟨merged.toRequirement, List.mem_map.2 ⟨merged, hmerged, rfl⟩, rfl⟩

-- ========================================================= validating

/-- What is said of a component that declares a plain value. -/
def complaint (id : Value) (declared : List (Declared σ)) : Option String :=
  let who := s!"Component \"{id.label}\""
  (declared.findSome? Declared.plain?).map fun v =>
    let reason := (v.lacks "resource_key").reason
    s!"{who} validation threw error: {reason}"

/-- Validating one component complains exactly of a plain value it declared. -/
theorem answer_validateOne {id : Value} {c : Component σ} {declared : List (Declared σ)}
    (declares : c.Declares declared)
    (there : ∀ r, .request r ∈ declared → b.resources.has r.resourceKey = true) (d : Desk σ) :
    (b.validateOne (id, c)).answer d = .ok ((complaint id declared).toList, []) := by
  have hverdict : (c.validateResources (.resources b.resources)).answer d
      = match declared.findSome? Declared.plain? with
        | none => .ok (.ofTexts [])
        | some v => .error (v.lacks "resource_key") := by
    rw [Component.answer_validateResources declares]
    exact Component.allPresent_eq fun r hr => congrArg Except.ok (there r hr)
  unfold Work.answer at hverdict
  unfold validateOne Work.answer complaint
  dsimp only
  rw [run_bind_of_ok (Work.run_outcome _ _), hverdict]
  cases declared.findSome? Declared.plain? with
  | none => rfl
  | some v => rfl

/-- Validating all gives the complaints of each, in order. -/
theorem answer_validateAll {entries : Keyed (Definition σ)} {components : Keyed (Component σ)}
    {declared : Value × Definition σ → List (Declared σ)}
    (made : List.Forall₂ (fun e c => c.1 = e.1 ∧ c.2.Declares (declared e)) entries components)
    (there : ∀ e ∈ entries, ∀ r, .request r ∈ declared e → b.resources.has r.resourceKey = true)
    (d : Desk σ) :
    (components.mapM b.validateOne).answer d
      = .ok (entries.map fun e => ((complaint e.1 (declared e)).toList, [])) := by
  induction made generalizing d with
  | nil => rfl
  | @cons e c entries components head tail ih =>
      obtain ⟨hid, hdeclares⟩ := head
      have hone : (b.validateOne c).answer d = .ok ((complaint e.1 (declared e)).toList, []) := by
        rw [← hid]
        exact answer_validateOne hdeclares (there e (by simp)) d
      obtain ⟨d₁, hone⟩ := Work.run_of_answer hone
      obtain ⟨d₂, hrest⟩ :=
        Work.run_of_answer (ih (fun e' he' => there e' (by simp [he'])) d₁)
      unfold Work.answer
      rw [List.mapM_cons, run_bind_of_ok hone, run_bind_of_ok hrest]
      rfl

/-- What an initialised backend validates: one line for each component that
declares a plain value, and nothing else. -/
theorem answer_validate (keeps : ∀ p ∈ b.registry.all, p.KeepsResourceKey)
    {declared : Value × Definition σ → List (Declared σ)}
    (declares : ∀ e ∈ b.definitions, e.2.Declares (declared e))
    {settings : Except Fault Settings} {s s' : Site σ} {summary : Summary} {b' : Backend σ}
    (started : (b.start settings).run s = ((.ok summary, b'), s')) (d : Desk σ) :
    b'.validate.answer d
      = .ok (.ofTexts (b.definitions.filterMap fun e => complaint e.1 (declared e))) := by
  have hb := collecting_of_start_ok started
  obtain ⟨p, s₁, hrun, -, rfl, -⟩ := (start_ok_iff hb).1 started
  obtain ⟨course⟩ := exists_course hb hrun
  have hmade : List.Forall₂ (fun e c => c.1 = e.1 ∧ c.2.Declares (declared e)) b.definitions
      (b.published p).components := by
    rw [runPhases_eq] at hrun
    obtain ⟨resources, s₂, -, hrun⟩ := run_bind_ok.1 hrun
    obtain ⟨components, s₃, hcomponents, hrun⟩ := run_bind_ok.1 hrun
    cases hrun
    have hstarted := run_mapM_ok (run_inPhase_ok.1 hcomponents)
    refine ((List.forall₂_and_left _ _).2 ⟨declares, hstarted⟩).imp ?_
    rintro e c ⟨hdeclares, t, t', hone⟩
    exact run_startOne_ok hone hdeclares
  have hthere : ∀ e ∈ b.definitions, ∀ r, .request r ∈ declared e →
      (b.published p).resources.has r.resourceKey = true :=
    fun e he r hr => has_of_declared keeps course he (declares e he) hr
  obtain ⟨d₁, hall⟩ := Work.run_of_answer (answer_validateAll hmade hthere d)
  have hinitialized : (!(b.published p).isInitialized) = false := rfl
  have hwarnings : (b.definitions.map fun e =>
      ((complaint e.1 (declared e)).toList, ([] : List String))).flatMap Prod.snd = [] := by
    rw [List.flatMap_map]
    exact List.flatMap_eq_nil_iff.2 fun _ _ => rfl
  have herrors : (b.definitions.map fun e =>
        ((complaint e.1 (declared e)).toList, ([] : List String))).flatMap Prod.fst
      = b.definitions.filterMap fun e => complaint e.1 (declared e) := by
    rw [List.flatMap_map, List.filterMap_eq_flatMap_toList]
  unfold Work.answer validate
  rw [hinitialized, if_neg (by decide), run_bind_of_ok hall, hwarnings, herrors]
  rfl

-- ========================================================= main result

/-- After an initialisation that succeeded, the requests that components
declare are satisfied: where each component declares the same requests each
time and leaves the check to them, and merging keeps the names of resources,
the backend finds nothing to say. -/
theorem declared_requests_are_satisfied (keeps : ∀ p ∈ b.registry.all, p.KeepsResourceKey)
    {requested : Value × Definition σ → List (Request σ)}
    (declares : ∀ e ∈ b.definitions, e.2.Declares ((requested e).map .request))
    {settings : Except Fault Settings} {s s' : Site σ} {summary : Summary} {b' : Backend σ}
    (started : (b.start settings).run s = ((.ok summary, b'), s')) (d : Desk σ) :
    b'.validate.answer d = .ok .ok := by
  have hnone : (b.definitions.filterMap fun e => complaint e.1 ((requested e).map .request))
      = [] := by
    refine List.filterMap_eq_nil_iff.2 fun e _ => ?_
    have hrequests : ((requested e).map Declared.request).findSome? Declared.plain? = none := by
      rw [List.findSome?_map]
      exact List.findSome?_eq_none_iff.2 fun _ _ => rfl
    unfold complaint
    rw [hrequests]
    rfl
  rw [answer_validate keeps declares started d, hnone]
  rfl

/-- A component that declares some things. -/
def declarer (id : String) (declared : List (Declared Unit)) : Definition Unit where
  id := .str id
  type := some (.str "service")
  factory := fun id _ resources => pure (.component {
    id := id
    type := .str "service"
    managed := true
    scope := .str "root"
    resources := resources
    declare := pure declared
    start := fun _ => pure ()
    ownCheck := fun _ => pure none })

theorem declares_declarer (id : String) (declared : List (Declared Unit)) :
    (declarer id declared).Declares declared := by
  intro resources s s' c h
  cases h
  exact ⟨fun _ => rfl, fun _ _ => rfl⟩

/-- A backend with one component, which needs accounts. -/
def withDeclarer (declared : List (Declared Unit)) : Backend Unit where
  id := .str "app"
  config := {}
  registry := (({} : Registry Unit).register (.provider accounts.provider)).1
  definitions := [(.str "worker", declarer "worker" declared)]

/-- The providers beside a declarer keep the resource key. -/
theorem keeps_withDeclarer (declared : List (Declared Unit)) :
    ∀ p ∈ (withDeclarer declared).registry.all, p.KeepsResourceKey := by
  have providers : (withDeclarer declared).registry.all = [accounts.provider] := rfl
  rw [providers]
  intro p hp
  rw [List.mem_singleton.1 hp]
  exact accounts.keepsTypeAndKey.keepsResourceKey

/-- The request for an account. -/
def accountNamed (key : String) : Request Unit :=
  ⟨⟨.str "account", .str key, [], .null, .absent⟩, []⟩

theorem two_requests_for_one_account_are_satisfied :
    let requested := [accountNamed "main", accountNamed "main", accountNamed "logs"]
    let b := withDeclarer (requested.map .request)
    let site : Site Unit := ⟨⟨(), []⟩, .node (.str "root") (.str "root") [] []⟩
    ∃ b', ((b.start (.ok {})).run site).1.2 = b'
      ∧ Table.keys b'.resources = ["account:main", "account:logs"]
      ∧ b'.validate.answer ⟨(), []⟩ = .ok .ok := by
  intro requested b site
  have outcome : (fun r : (Except Fault Summary × Backend Unit) × Site Unit =>
      (r.1.1.toOption.isSome, Table.keys r.1.2.resources)) ((b.start (.ok {})).run site)
        = (true, ["account:main", "account:logs"]) := rfl
  have declares : ∀ e ∈ b.definitions, e.2.Declares (requested.map .request) := by
    intro e he
    rw [List.mem_singleton.1 he]
    exact declares_declarer _ _
  rcases started : (b.start (.ok {})).run site with ⟨⟨fault | summary, b'⟩, s'⟩
  · rw [started] at outcome
    cases outcome
  · rw [started] at outcome
    injection outcome with _ published
    exact ⟨b', rfl, published,
      declared_requests_are_satisfied (keeps_withDeclarer _) declares started _⟩

/-- A requirement that is declared as a plain mapping is collected and gets
its resource, and is not satisfied all the same. -/
theorem plain_mapping_is_not_satisfied :
    let declared : List (Declared Unit) :=
      [.plain (.object [("resource_type", .str "account"), ("requirement_key", .str "main")])]
    let b := withDeclarer declared
    let site : Site Unit := ⟨⟨(), []⟩, .node (.str "root") (.str "root") [] []⟩
    (∀ e ∈ b.definitions, e.2.Declares declared)
      ∧ (∀ p ∈ b.registry.all, p.KeepsResourceKey)
      ∧ ∃ summary b' s', (b.start (.ok {})).run site = ((.ok summary, b'), s')
        ∧ summary.resourceKeys = ["account:main"]
        ∧ ∀ d, b'.validate.answer d = .ok (.failed [.str ("Component \"worker\" validation threw "
          ++ "error: 'dict' object has no attribute 'resource_key'")]) := by
  intro declared b site
  have declares : ∀ e ∈ b.definitions, e.2.Declares declared := by
    intro e he
    rw [List.mem_singleton.1 he]
    exact declares_declarer _ _
  refine ⟨declares, keeps_withDeclarer _, ?_⟩
  have outcome : (fun r : (Except Fault Summary × Backend Unit) × Site Unit =>
      r.1.1.toOption.map Summary.resourceKeys) ((b.start (.ok {})).run site)
        = some ["account:main"] := rfl
  rcases started : (b.start (.ok {})).run site with ⟨⟨fault | summary, b'⟩, s'⟩
  · rw [started] at outcome
    cases outcome
  · rw [started] at outcome
    injection outcome with published
    refine ⟨summary, b', s', rfl, published, fun d => ?_⟩
    rw [answer_validate (keeps_withDeclarer _) declares started d]
    rfl

end Backend

end Depot
