/-
Backends whose collaborators repeat themselves. Components declare the
same each time they are made, validators and providers give the same
answer to the same question; they may fail, but then they fail again.
What such a backend does up to the merge phase is then steady: collecting
(`steady_collect`), asking validators (`steady_runValidators`) and merging
(`steady_mergeGroup`) answer the same at every desk, so that their
outcomes can be told without an initialisation.

Two more promises are part of this, because what is recorded in a plan
needs them: declared sources are texts, and merging keeps type and key.
-/
import Depot.Proofs.Backend.Coherent
import Depot.Proofs.Backend.Phases
import Depot.Proofs.Provider.Search
import Depot.Proofs.Requirement.Grouping
import Depot.Proofs.Steady

namespace Depot

open Work (Steady Gives)

variable {σ : Type}

-- =========================================================== promises

/-- A component that declares the same whenever and wherever it is made,
with validators that repeat themselves and with texts as sources. -/
structure Definition.Repeatable (d : Definition σ) : Prop where
  declares : ∀ scope, (Work.inScope scope d.declared).Steady
  validates : ∀ scope requests, (Work.inScope scope d.declared).Gives requests →
    ∀ r ∈ requests, ∀ v ∈ r.validators, ∀ q surroundings, (v.validate q surroundings).Steady
  sources : ∀ scope requests, (Work.inScope scope d.declared).Gives requests →
    ∀ r ∈ requests, ∀ m, r.provenance = .known m → ∃ text, m.source = .str text

/-- A provider that repeats itself and keeps type and key. -/
structure Provider.Repeatable (p : Provider σ) : Prop where
  canProvide : ∀ r, (p.canProvide r).Steady
  merges : ∀ requests, (p.merge requests).Steady
  validates : ∀ r, (p.validateMerged r).Steady
  keeps : p.KeepsTypeAndKey

/-- A backend all of whose collaborators repeat themselves. -/
structure Backend.Repeatable (b : Backend σ) : Prop where
  definitions : ∀ e ∈ b.definitions, e.2.Repeatable
  providers : ∀ p ∈ b.registry.all, p.Repeatable

/-- A request that was collected from such a component: its validators
repeat themselves, and its source can be told from others. -/
structure Request.Repeatable (r : Request σ) : Prop where
  validates : ∀ v ∈ r.validators, ∀ q surroundings, (v.validate q surroundings).Steady
  source : ∃ source, r.provenance.source = .ok source ∧ source.canName = true

namespace Kind

variable {C : Type}

/-- A typed provider merges the same way every time. -/
theorem steady_mergeRequests (k : Kind σ C) (requests : List (Request σ)) :
    (k.mergeRequests requests).Steady := by
  cases requests with
  | nil => exact .throw _
  | cons first rest =>
      cases rest with
      | nil => exact .pure first
      | cons second rest =>
          unfold mergeRequests
          refine .bind (.ofExcept _) fun isOver _ => ?_
          dsimp only
          split
          · exact .throw _
          · split
            · exact .throw _
            · refine .bind (.bind (.report _) fun _ _ => .ofExcept _) fun config _ => ?_
              refine .bind (.ofExcept _) fun verdict _ => ?_
              split
              · exact .throw _
              · refine .bind (.ofExcept _) fun priority _ => ?_
                exact .bind (.ofExcept _) fun result _ => .pure _

/-- A provider that is only a kind of resource has nothing to remember. -/
theorem repeatable (k : Kind σ C) : k.provider.Repeatable where
  canProvide _ := .pure _
  merges requests := k.steady_mergeRequests requests
  validates _ := .ofExcept _
  keeps := k.keepsTypeAndKey

end Kind

-- ========================================================== searching

namespace Registry

/-- The providers of a type are among all. -/
theorem mem_all_of_forType {reg : Registry σ} {type : Value} {ps : List (Provider σ)}
    (h : reg.forType type = .ok ps) {p : Provider σ} (hp : p ∈ ps) : p ∈ reg.all := by
  obtain ⟨ids, -, h⟩ := bind_eq_ok.1 h
  cases h
  obtain ⟨id, -, hget⟩ := List.mem_filterMap.1 hp
  obtain ⟨k, hk, -⟩ := Keyed.mem_of_get? hget
  exact List.mem_map.2 ⟨(k, p), hk, rfl⟩

/-- Asking providers in turn is steady if each of their answers is. -/
theorem steady_firstCapable {r : Requirement} {ps : List (Provider σ)}
    (h : ∀ p ∈ ps, (p.canProvide r).Steady) : (firstCapable r ps).Steady := by
  induction ps with
  | nil => exact .pure none
  | cons p ps ih =>
      refine .bind (h p (by simp)) fun answer _ => ?_
      cases answer with
      | true => exact .pure (some p)
      | false => exact ih fun q hq => h q (by simp [hq])

/-- The provider that is found is one of those asked. -/
theorem mem_of_gives_firstCapable {r : Requirement} {ps : List (Provider σ)} {p : Provider σ}
    (h : (firstCapable r ps).Gives (some p)) : p ∈ ps := by
  induction ps with
  | nil =>
      obtain ⟨d, h⟩ := h
      cases h
  | cons q ps ih =>
      obtain ⟨answer, -, h⟩ := Work.gives_bind h
      cases answer with
      | true =>
          obtain ⟨d, h⟩ := h
          cases h
          simp
      | false => exact List.mem_cons_of_mem q (ih h)

variable {reg : Registry σ} (providers : ∀ p ∈ reg.all, p.Repeatable)

include providers in
theorem steady_find? (r : Requirement) : (reg.find? r).Steady := by
  refine .bind (.ofExcept _) fun ps hps => ?_
  obtain ⟨d, hps⟩ := hps
  exact steady_firstCapable fun p hp =>
    (providers p (mem_all_of_forType hps hp)).canProvide r

include providers in
theorem steady_find (r : Requirement) : (reg.find r).Steady := by
  refine .bind (steady_find? providers r) fun found _ => ?_
  cases found with
  | none => exact .throw _
  | some p => exact .pure p

/-- A provider that can be found is registered. -/
theorem mem_of_gives_find {r : Requirement} {p : Provider σ} (h : (reg.find r).Gives p) :
    p ∈ reg.all := by
  obtain ⟨found, hfound, h⟩ := Work.gives_bind h
  obtain ⟨ps, hps, hfirst⟩ := Work.gives_bind hfound
  obtain ⟨d, h⟩ := h
  obtain ⟨d', hps⟩ := hps
  cases found with
  | none => cases h
  | some q =>
      cases h
      exact mem_all_of_forType hps (mem_of_gives_firstCapable hfirst)

include providers in
/-- Listing the types that nobody provides is steady. -/
theorem steady_coverage (rs : List Requirement) : (reg.coverage rs).Steady := by
  have hmissing : ∀ rs missing, (reg.missingTypes missing rs).Steady := by
    intro rs
    induction rs with
    | nil => exact fun missing => .pure missing
    | cons r rs ih =>
        intro missing
        refine .bind (steady_find? providers r) fun found _ => ?_
        cases found with
        | none => exact ih _
        | some p => exact ih _
  exact .bind (hmissing rs []) fun missing _ => .pure _

end Registry

-- ========================================================== collecting

/-- A recorded source is the one put in, or was declared. -/
theorem Provenance.of_withSource {p p' : Provenance} {id : Value} (h : p.withSource id = .ok p') :
    ∃ m, p' = .known m ∧ (m.source = id ∨ p = .known m) := by
  cases p with
  | absent =>
      cases h
      exact ⟨_, rfl, .inl rfl⟩
  | known m =>
      cases h
      by_cases htruthy : m.source.isTruthy = true
      · rw [if_pos htruthy]
        exact ⟨m, rfl, .inr rfl⟩
      · rw [if_neg htruthy]
        exact ⟨_, rfl, .inl rfl⟩
  | loose v => cases h

/-- A source changes the origin of a request and nothing about its
validators. -/
theorem Request.of_withSource {q r : Request σ} {id : Value} (h : q.withSource id = .ok r) :
    r.validators = q.validators ∧ q.provenance.withSource id = .ok r.provenance := by
  obtain ⟨q', hq, h⟩ := bind_eq_ok.1 h
  cases h
  obtain ⟨provenance, hprovenance, hq⟩ := bind_eq_ok.1 hq
  cases hq
  exact ⟨rfl, hprovenance⟩

namespace Backend

/-- A request collected from a component with the promises is repeatable. -/
theorem repeatable_withSource {r r' : Request σ} {id : Value} (hid : id.canName = true)
    (validates : ∀ v ∈ r.validators, ∀ q surroundings, (v.validate q surroundings).Steady)
    (sources : ∀ m, r.provenance = .known m → ∃ text, m.source = .str text)
    (h : r.withSource id = .ok r') : r'.Repeatable := by
  obtain ⟨hvalidators, hprovenance⟩ := Request.of_withSource h
  obtain ⟨m, hm, hsource⟩ := Provenance.of_withSource hprovenance
  refine ⟨by rw [hvalidators]; exact validates, m.source, by rw [hm]; rfl, ?_⟩
  rcases hsource with hput | hdeclared
  · rw [hput]
    exact hid
  · obtain ⟨text, htext⟩ := sources m hdeclared
    rw [htext]
    rfl

/-- Collecting from one such component is steady. -/
theorem steady_collectOne (b : Backend σ) (mark : BackendMark) (arena : Scope)
    {entry : Value × Definition σ} (h : entry.2.Repeatable) :
    (b.collectOne mark arena entry).Steady := by
  refine .bind (.ofExcept _) fun arena' _ => ?_
  refine .bind (.rephrase (h.declares _) _) fun declared _ => ?_
  refine .bind (.ofExcept _) fun requests _ => ?_
  exact .bind (.report _) fun _ _ => .pure _

/-- Collecting from several components with the promises is steady. -/
theorem steady_collectFrom (b : Backend σ) (mark : BackendMark) (arena : Scope)
    {entries : Keyed (Definition σ)} (h : ∀ e ∈ entries, e.2.Repeatable) :
    (b.collectFrom mark arena entries).Steady := by
  induction entries generalizing arena with
  | nil => exact .pure []
  | cons entry entries ih =>
      refine .bind (b.steady_collectOne mark arena (h entry (by simp))) fun one _ => ?_
      refine .bind (ih one.2 fun e he => h e (by simp [he])) fun rest _ => ?_
      exact .pure _

/-- The requests of all components, collected away from the caller's
scope. -/
def requested (b : Backend σ) (settings : Except Fault Settings) : Work σ (List (Request σ)) := do
  b.collect (← Work.ofExcept (b.mark settings))

section Collected

variable {b : Backend σ} {P : Request σ → Prop}

/-- What is collected from a component is what it declares, with its id as
the source where it names none. -/
theorem forall_of_collectOne {mark : BackendMark} {arena arena' : Scope}
    {entry : Value × Definition σ}
    (h : ∀ scope declared, (Work.inScope scope entry.2.declared).Gives declared →
      ∀ q ∈ declared, ∀ r, q.withSource entry.1 = .ok r → P r)
    {requests : List (Request σ)}
    (gives : (b.collectOne mark arena entry).Gives (requests, arena')) : ∀ r ∈ requests, P r := by
  obtain ⟨arena₁, -, gives⟩ := Work.gives_bind gives
  obtain ⟨declared, hdeclared, gives⟩ := Work.gives_bind gives
  obtain ⟨requests', ⟨_, hrequests⟩, gives⟩ := Work.gives_bind gives
  obtain ⟨_, -, d, hd⟩ := Work.gives_bind gives
  cases hd
  intro r hr
  obtain ⟨q, hq, hsource⟩ := exists_of_mapM_ok hrequests r hr
  exact h _ _ (Work.gives_of_rephrase hdeclared) q hq r hsource

/-- What holds of every request that may be declared holds of all that are
collected. -/
theorem forall_of_collectFrom {mark : BackendMark} {arena : Scope}
    {entries : Keyed (Definition σ)}
    (h : ∀ e ∈ entries, ∀ scope declared, (Work.inScope scope e.2.declared).Gives declared →
      ∀ q ∈ declared, ∀ r, q.withSource e.1 = .ok r → P r)
    {requests : List (Request σ)}
    (gives : (b.collectFrom mark arena entries).Gives requests) : ∀ r ∈ requests, P r := by
  induction entries generalizing arena requests with
  | nil =>
      obtain ⟨d, hd⟩ := gives
      cases hd
      simp
  | cons entry entries ih =>
      obtain ⟨one, hone, gives⟩ := Work.gives_bind gives
      obtain ⟨rest, hrest, d, hd⟩ := Work.gives_bind gives
      cases hd
      intro r hr
      rcases List.mem_append.1 hr with hr | hr
      · exact forall_of_collectOne (h entry (by simp)) hone r hr
      · exact ih (fun e he => h e (by simp [he])) hrest r hr

/-- Whatever holds of what components declare, once the source is put in,
holds of what a backend collects. -/
theorem forall_of_requested
    (h : ∀ e ∈ b.definitions, ∀ scope declared,
      (Work.inScope scope e.2.declared).Gives declared →
      ∀ q ∈ declared, ∀ r, q.withSource e.1 = .ok r → P r)
    {settings : Except Fault Settings} {requests : List (Request σ)}
    (gives : (b.requested settings).Gives requests) : ∀ r ∈ requests, P r := by
  obtain ⟨mark, -, gives⟩ := Work.gives_bind gives
  obtain ⟨arena, -, gives⟩ := Work.gives_bind gives
  obtain ⟨requests', hrequests, gives⟩ := Work.gives_bind gives
  obtain ⟨_, -, d, hd⟩ := Work.gives_bind gives
  cases hd
  exact forall_of_collectFrom h hrequests

end Collected

/-- Collecting is steady for a backend with the promises. -/
theorem steady_collect {b : Backend σ} (repeatable : b.Repeatable) (mark : BackendMark) :
    (b.collect mark).Steady := by
  refine .bind (.ofExcept _) fun arena _ => ?_
  refine .bind (b.steady_collectFrom mark arena repeatable.definitions) fun requests _ => ?_
  exact .bind (.ofExcept _) fun _ _ => .pure requests

/-- What a repeatable backend collects are repeatable requests. -/
theorem repeatable_of_requested {b : Backend σ} (coherent : b.Coherent)
    (repeatable : b.Repeatable) {settings : Except Fault Settings} {requests : List (Request σ)}
    (gives : (b.requested settings).Gives requests) : ∀ r ∈ requests, r.Repeatable := by
  refine forall_of_requested (fun e he scope declared hdeclared q hq r hsource => ?_) gives
  have h := repeatable.definitions e he
  exact repeatable_withSource (coherent.named e he).2 (h.validates _ _ hdeclared q hq)
    (h.sources _ _ hdeclared q hq) hsource

-- ========================================================== validating

theorem steady_runValidators (b : Backend σ) {requests : List (Request σ)}
    (validates : ∀ r ∈ requests, ∀ v ∈ r.validators, ∀ q surroundings,
      (v.validate q surroundings).Steady) : (b.runValidators requests).Steady := by
  refine .bind (.mapM fun r hr => ?_) fun found _ => .pure _
  refine .bind (.mapM fun v hv => ?_) fun found _ => .pure _
  exact .bind (validates r hr v hv _ _) fun verdict _ => .pure _

-- ============================================================= merging

/-- Sources that can all be read can be listed. -/
theorem sourcesOf_ok {requests : List (Request σ)} {P : Value → Prop}
    (h : ∀ r ∈ requests, ∃ source, r.provenance.source = .ok source ∧ P source) :
    ∃ sources, sourcesOf requests = .ok sources ∧ ∀ s ∈ sources, P s := by
  induction requests with
  | nil => exact ⟨[], rfl, by simp⟩
  | cons r requests ih =>
      obtain ⟨source, hsource, hfirst⟩ := h r (by simp)
      obtain ⟨sources, hsources, hrest⟩ := ih fun q hq => h q (by simp [hq])
      refine ⟨source :: sources, ?_, List.forall_mem_cons.2 ⟨hfirst, hrest⟩⟩
      unfold sourcesOf at hsources ⊢
      rw [List.mapM_cons, hsource, hsources]
      rfl

/-- Merging one group is steady if the providers are repeatable. -/
theorem steady_mergeGroup {b : Backend σ} (providers : ∀ p ∈ b.registry.all, p.Repeatable)
    (group : String × List (Request σ)) : (b.mergeGroup group).Steady := by
  unfold mergeGroup
  split
  · exact .pure _
  · refine .bind (.ofExcept _) fun first _ => ?_
    refine .bind (Registry.steady_find providers _) fun provider hprovider => ?_
    have hp := providers provider (Registry.mem_of_gives_find hprovider)
    refine .bind (hp.merges _) fun merged _ => ?_
    refine .bind (hp.validates _) fun verdict _ => ?_
    split
    · exact .bind (.ofExcept _) fun list _ => .throw _
    · refine .bind (.ofExcept _) fun sources _ => ?_
      exact .bind (.report _) fun _ _ => .pure merged

/-- What a group is merged to stands for the resource of the group. -/
theorem resourceKey_of_gives_mergeGroup {b : Backend σ}
    (providers : ∀ p ∈ b.registry.all, p.Repeatable) {requests : List (Request σ)}
    {group : String × List (Request σ)} (hgroup : group ∈ groups requests)
    {merged : Request σ} (gives : (b.mergeGroup group).Gives merged) :
    merged.resourceKey = group.1 := by
  obtain ⟨key, members⟩ := group
  have hmembers := (Requirement.of_mem_groupByResourceKey _ hgroup).1
  have hkey : ∀ r ∈ members, r.resourceKey = key := by
    intro r hr
    exact Requirement.resourceKey_of_mem_sharing Request.toRequirement (hmembers ▸ hr)
  cases members with
  | nil =>
      obtain ⟨first, ⟨d, hfirst⟩, -⟩ := Work.gives_bind gives
      cases hfirst
  | cons first rest =>
      cases rest with
      | nil =>
          obtain ⟨d, hd⟩ := gives
          cases hd
          exact hkey merged (List.mem_singleton_self merged)
      | cons second rest =>
          obtain ⟨first', ⟨_, hfirst⟩, gives⟩ := Work.gives_bind gives
          cases hfirst
          obtain ⟨provider, hprovider, gives⟩ := Work.gives_bind gives
          obtain ⟨merged', ⟨d, hmerged⟩, gives⟩ := Work.gives_bind gives
          obtain ⟨verdict, -, gives⟩ := Work.gives_bind gives
          have hp := providers provider (Registry.mem_of_gives_find hprovider)
          have hkeeps := hp.keeps.resourceKey (Prod.ext hmerged rfl)
          split at gives
          · obtain ⟨_, -, d, hd⟩ := Work.gives_bind gives
            cases hd
          · obtain ⟨_, -, gives⟩ := Work.gives_bind gives
            obtain ⟨_, -, d, hd⟩ := Work.gives_bind gives
            cases hd
            rw [hkeeps]
            exact hkey first (by simp)

-- ========================================================= an example

/-- A component that asks for some accounts. -/
def accountUser (id : String) (keys : List String) : Definition Unit where
  id := .str id
  type := some (.str "service")
  factory := fun id _ resources => pure (.component {
    id := id
    type := .str "service"
    managed := true
    scope := .str "root"
    resources := resources
    declare := pure (keys.map fun key =>
      .request ⟨⟨.str "account", .str key, [], .null, .absent⟩, []⟩)
    start := fun _ => pure ()
    ownCheck := fun _ => pure none })

/-- A user of an account declares requests for accounts, without validators
or origin. -/
theorem declared_accountUser {id : String} {keys : List String} {scope : Scope}
    {requests : List (Request Unit)}
    (gives : (Work.inScope scope (accountUser id keys).declared).Gives requests) :
    ∀ r ∈ requests, r.type = .str "account" ∧ r.validators = [] ∧ r.provenance = .absent := by
  obtain ⟨d, hd⟩ := gives
  intro r hr
  obtain ⟨declared, hin, hrequest⟩ := exists_of_mapM_ok hd r hr
  obtain ⟨key, -, rfl⟩ := List.mem_map.1 hin
  cases hrequest
  exact ⟨rfl, rfl, rfl⟩

/-- A user of an account keeps the promises. -/
theorem repeatable_accountUser (id : String) (keys : List String) :
    (accountUser id keys).Repeatable := by
  refine ⟨fun scope d d' => rfl, ?_, ?_⟩
  · intro scope requests gives r hr v hv
    rw [(declared_accountUser gives r hr).2.1] at hv
    cases hv
  · intro scope requests gives r hr m hm
    rw [(declared_accountUser gives r hr).2.2] at hm
    cases hm

end Backend

end Depot
