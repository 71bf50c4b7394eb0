/-
Provisioning by providers that make handles. One requirement whose key is
new adds one handle and one child scope of its name (`run_provisionOne_ok`).
So requirements of different keys are provisioned, one after the other,
exactly if each has a description and the scope admits all names together;
what comes out is a handle under each key (`run_provisionEach_ok`,
`run_provisionEach_of_provided`).

Neither what is described nor what is admitted depends on the order, and so
the same resources come out in every order (`exists_provisionEach_of_perm`).
-/
import Depot.Proofs.Provider.Standard

namespace Depot.Backend

variable {σ : Type} {b : Backend σ} {context : Provisioning} {staged resources : Resources}
  {s s' : Site σ}

-- ====================================================== one requirement

/-- The handle that the provider for a requirement describes. -/
def Describes (b : Backend σ) (context : Provisioning) (scope : Scope) (r : Requirement)
    (h : Handle) : Prop :=
  ∃ (C : Type) (k : Kind σ C), k.MakesHandles ∧ (b.registry.find r).Gives k.provider
    ∧ k.Describes context scope r h

section Standard

variable (standard : ∀ p ∈ b.registry.all, p.IsStandard)

include standard in
/-- A requirement that is new adds a handle, and a child of its name. -/
theorem run_provisionOne_ok {r : Requirement} (new : r.resourceKey ∉ Table.keys staged)
    (provisions : (b.provisionOne context staged r).run s = (.ok resources, s')) :
    ∃ h, b.Describes context s.scope r h ∧ s.scope.Admits [h.name]
      ∧ s'.scope = s.scope.grown [h.name]
      ∧ resources = staged ++ [(r.resourceKey, .handle h)] := by
  obtain ⟨provider, s₁, hfind, provisions⟩ := run_bind_ok.1 provisions
  obtain ⟨d, hfound, rfl⟩ := SiteWork.run_ofWork_ok.1 hfind
  have hgives := Work.gives_of_run hfound
  obtain ⟨C, k, handles, rfl⟩ := (standard _ (Registry.mem_of_gives_find hgives)).exists_kind
  obtain ⟨verdict, s₂, hverdict, provisions⟩ := run_bind_ok.1 provisions
  obtain ⟨d', hanswer, rfl⟩ := SiteWork.run_ofWork_ok.1 hverdict
  dsimp only at provisions
  split at provisions
  next =>
    obtain ⟨list, s₃, -, provisions⟩ := run_bind_ok.1 provisions
    cases provisions
  next =>
    obtain ⟨resource, s₃, hprovide, provisions⟩ := run_bind_ok.1 provisions
    obtain ⟨_, s₄, hreport, provisions⟩ := run_bind_ok.1 provisions
    cases hreport
    cases provisions
    have hnone := Table.lookup_eq_none.2 new
    obtain ⟨h, describes, admits, rfl, hscope⟩ :=
      Kind.run_provide_ok handles hnone (SiteWork.run_rephrase_ok.1 hprovide)
    exact ⟨h, ⟨C, k, handles, hgives, describes⟩, admits, hscope, Table.put_of_notMem new _⟩

include standard in
/-- A requirement that is new and described is provisioned, where the scope
admits the name. -/
theorem run_provisionOne_of_describes {r : Requirement} {h : Handle}
    (new : r.resourceKey ∉ Table.keys staged) (describes : b.Describes context s.scope r h)
    (admits : s.scope.Admits [h.name]) :
    ∃ s', (b.provisionOne context staged r).run s
        = (.ok (staged ++ [(r.resourceKey, .handle h)]), s')
      ∧ s'.scope = s.scope.grown [h.name] := by
  obtain ⟨C, k, handles, ⟨d, hgives⟩, describes⟩ := describes
  have hsteady := Registry.steady_find (fun p hp => (standard p hp).repeatable) r
  obtain ⟨d', hfind⟩ := hsteady.run hgives s.toDesk
  have hfound := SiteWork.run_ofWork_ok.2 ⟨d', hfind, rfl⟩
  obtain ⟨verdict, haccepts, hvalid⟩ := describes.valid
  have hchecked : (SiteWork.ofWork (k.provider.validateMerged r)).run { s with toDesk := d' }
      = (.ok verdict, { s with toDesk := d' }) :=
    SiteWork.run_ofWork_ok.2 ⟨d', Work.run_ofExcept_ok.2 ⟨haccepts, rfl⟩, rfl⟩
  have hnone : ({ context with existing := staged } : Provisioning).existing.lookup r.resourceKey
      = none := Table.lookup_eq_none.2 new
  have hdescribes : k.Describes { context with existing := staged } s.scope r h := describes
  obtain ⟨s', hprovide, hscope⟩ :=
    Kind.run_provide_of_describes (s := { s with toDesk := d' }) handles hnone hdescribes admits
  have hrephrased := fun f => (SiteWork.run_rephrase_ok (f := f)).2 hprovide
  rw [← Table.put_of_notMem new]
  unfold provisionOne
  rw [run_bind_of_ok hfound, run_bind_of_ok hchecked]
  dsimp only
  rw [hvalid, if_neg (by decide)]
  exact ⟨_, run_bind_ok.2 ⟨_, s', hrephrased _, rfl⟩, hscope⟩

-- ================================================ several requirements

/-- What is provided for a requirement: a handle under its key. -/
def Provided (b : Backend σ) (context : Provisioning) (scope : Scope) (r : Requirement)
    (entry : String × Handle) : Prop :=
  entry.1 = r.resourceKey ∧ b.Describes context scope r entry.2

/-- Handles as resources. -/
def asResources (entries : List (String × Handle)) : Resources :=
  entries.map fun e => (e.1, .handle e.2)

/-- The names of the scopes of handles. -/
def scopeNames (entries : List (String × Handle)) : List String := entries.map fun e => e.2.name

/-- The resources stand under the keys of the requirements they were made
for, in order. -/
theorem keys_of_provided {scope : Scope} {rs : List Requirement} {entries : List (String × Handle)}
    (h : List.Forall₂ (b.Provided context scope) rs entries) :
    Table.keys (asResources entries) = rs.map Requirement.resourceKey := by
  induction h with
  | nil => rfl
  | cons head tail ih =>
      show _ :: Table.keys (asResources _) = _
      rw [ih, head.1]
      rfl

/-- Neither what is described nor where depends on what was made before. -/
theorem provided_grown (scope : Scope) (names : List String) :
    b.Provided context (scope.grown names) = b.Provided context scope := rfl

include standard in
/-- Requirements that are new and different are provisioned by a handle
each, and the scope gets a child of each name. -/
theorem run_provisionEach_ok {rs : List Requirement}
    (distinct : (rs.map Requirement.resourceKey).Nodup)
    (fresh : ∀ r ∈ rs, r.resourceKey ∉ Table.keys staged)
    (provisions : (rs.foldlM (b.provisionOne context) staged).run s = (.ok resources, s')) :
    ∃ entries, List.Forall₂ (b.Provided context s.scope) rs entries
      ∧ s.scope.Admits (scopeNames entries)
      ∧ s'.scope = s.scope.grown (scopeNames entries)
      ∧ resources = staged ++ asResources entries := by
  induction rs generalizing staged s with
  | nil =>
      cases provisions
      exact ⟨[], .nil, s'.scope.admits_nil, s'.scope.grown_nil.symm, (List.append_nil _).symm⟩
  | cons r rs ih =>
      rw [List.foldlM_cons] at provisions
      obtain ⟨staged', s₁, hone, hrest⟩ := run_bind_ok.1 provisions
      obtain ⟨h, describes, hadmits, hscope, rfl⟩ :=
        run_provisionOne_ok standard (fresh r (by simp)) hone
      obtain ⟨hnew, hdistinct⟩ := List.nodup_cons.1 distinct
      obtain ⟨entries, provided, hadmitted, hgrown, rfl⟩ :=
        ih hdistinct (Table.fresh_concat hnew fresh _) hrest
      rw [hscope, provided_grown] at provided
      rw [hscope] at hadmitted hgrown
      refine ⟨(r.resourceKey, h) :: entries, .cons ⟨rfl, describes⟩ provided,
        Scope.admits_cons.2 ⟨hadmits, hadmitted⟩, ?_, ?_⟩
      · rw [hgrown, Scope.grown_grown]
        rfl
      · rw [List.append_assoc]
        rfl

include standard in
/-- Requirements that are new, different and described are provisioned, where
the scope admits all names. -/
theorem run_provisionEach_of_provided {rs : List Requirement}
    (distinct : (rs.map Requirement.resourceKey).Nodup)
    (fresh : ∀ r ∈ rs, r.resourceKey ∉ Table.keys staged) {entries : List (String × Handle)}
    (provided : List.Forall₂ (b.Provided context s.scope) rs entries)
    (admits : s.scope.Admits (scopeNames entries)) :
    ∃ s', (rs.foldlM (b.provisionOne context) staged).run s
        = (.ok (staged ++ asResources entries), s')
      ∧ s'.scope = s.scope.grown (scopeNames entries) := by
  induction rs generalizing staged s entries with
  | nil =>
      cases provided
      exact ⟨s, by rw [asResources, List.map_nil, List.append_nil]; rfl, s.scope.grown_nil.symm⟩
  | cons r rs ih =>
      cases provided with
      | @cons _ entry _ entries head tail =>
          obtain ⟨key, h⟩ := entry
          obtain ⟨rfl, describes⟩ := head
          obtain ⟨hone, hrest⟩ := Scope.admits_cons.1 admits
          obtain ⟨s₁, hrun, hscope⟩ :=
            run_provisionOne_of_describes standard (fresh r (by simp)) describes hone
          rw [← provided_grown s.scope [h.name], ← hscope] at tail
          obtain ⟨hnew, hdistinct⟩ := List.nodup_cons.1 distinct
          obtain ⟨s₂, hruns, hscopes⟩ :=
            ih hdistinct (Table.fresh_concat hnew fresh _) tail (hscope ▸ hrest)
          refine ⟨s₂, ?_, ?_⟩
          · rw [List.foldlM_cons, run_bind_of_ok hrun, hruns, List.append_assoc]
            rfl
          · rw [hscopes, hscope, Scope.grown_grown]
            rfl

include standard in
/-- Requirements of different keys are provisioned in any order, with the
same handle under each key. -/
theorem exists_provisionEach_of_perm {rs rs' : List Requirement} (reordered : rs.Perm rs')
    (distinct : (rs.map Requirement.resourceKey).Nodup)
    (provisions : (rs.foldlM (b.provisionOne context) []).run s = (.ok resources, s')) :
    ∃ entries, resources = asResources entries ∧ (Table.keys resources).Nodup
      ∧ s'.scope = s.scope.grown (scopeNames entries)
      ∧ ∃ entries', entries.Perm entries'
        ∧ (rs'.foldlM (b.provisionOne context) []).Leads s.scope (asResources entries')
            (s.scope.grown (scopeNames entries')) := by
  have hfresh : ∀ rs : List Requirement, ∀ r ∈ rs, r.resourceKey ∉ Table.keys ([] : Resources) :=
    fun _ _ _ => List.not_mem_nil
  obtain ⟨entries, provided, admits, hgrown, rfl⟩ :=
    run_provisionEach_ok standard distinct (hfresh rs) provisions
  obtain ⟨entries', provided', hperm⟩ := List.perm_comp_forall₂ reordered.symm provided
  have hdistinct := ((reordered.map Requirement.resourceKey).nodup_iff).1 distinct
  have hkeys : (Table.keys (asResources entries)).Nodup := by
    rw [keys_of_provided provided]
    exact distinct
  refine ⟨entries, rfl, hkeys, hgrown, entries', hperm.symm, fun t ht => ?_⟩
  rw [← ht] at provided' admits ⊢
  exact run_provisionEach_of_provided standard hdistinct (hfresh rs') provided'
    (admits.perm (hperm.symm.map _))

end Standard

/-- Handles under different keys are found whatever their order. -/
theorem lookup_asResources_perm {entries entries' : List (String × Handle)}
    (distinct : (Table.keys (asResources entries)).Nodup) (reordered : entries.Perm entries')
    (key : String) :
    List.lookup key (asResources entries) = List.lookup key (asResources entries') :=
  Table.lookup_perm distinct (reordered.map _) key

end Depot.Backend
