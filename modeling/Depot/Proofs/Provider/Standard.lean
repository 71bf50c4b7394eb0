/-
Providers that make handles. The built-in ones do, and generic ones that
were given no way of their own to make a resource. Where there is nothing
yet under the name of the resource, what such a provider does at a scope
comes to this: it describes a handle (`Kind.Describes`), and the scope gets
a child of the handle's name, which it has to admit (`run_provide_ok`,
`run_provide_of_describes`).

The description reads the path of the scope and nothing else of it, and
nothing of what was made before.
-/
import Depot.Proofs.Backend.Repeatable
import Depot.Proofs.Backend.Revalidation
import Depot.Proofs.Scope

namespace Depot

variable {σ C : Type}

namespace Kind

variable {k : Kind σ C} {r : Requirement} {p : Provisioning} {scope : Scope} {h : Handle}
  {s s' : Site σ}

-- ========================================================== describing

/-- The kind makes handles of its own type and nothing else. -/
def MakesHandles (k : Kind σ C) : Prop := k.make = Kind.handle k.type k.write

/-- The handle that a kind describes as the resource for a requirement: the
configuration is read and found valid, the name and the tags can be told,
and the scope of the resource is a child of that name. -/
def Describes (k : Kind σ C) (p : Provisioning) (scope : Scope) (r : Requirement) (h : Handle) :
    Prop :=
  ∃ config verdict name tags,
    k.read r.config = .ok config ∧ k.validateMerged r = .ok verdict ∧ verdict.valid = true
      ∧ p.naming.resourceName r.type p.backendId r.key = .ok name ∧ p.tags.toFields = .ok tags
      ∧ h = ⟨name, k.type, k.write config, scope.pathBelow (.str name), tags,
          (Fields.getD (k.write config) "location").orElse p.location, p.environment⟩

theorem Describes.valid (describes : k.Describes p scope r h) :
    ∃ verdict, k.validateMerged r = .ok verdict ∧ verdict.valid = true := by
  obtain ⟨_, verdict, _, _, -, haccepts, hvalid, -⟩ := describes
  exact ⟨verdict, haccepts, hvalid⟩

/-- A handle takes a new name in the scope and nothing else. -/
theorem run_handle_ok {type : Value} {write : C → Fields} {name : String} {config : C}
    {resource : Resource} :
    (handle type write name config p).run s = (.ok resource, s') ↔
      s.scope.Admits [name] ∧ s' = { s with scope := s.scope.grown [name] }
        ∧ ∃ tags, p.tags.toFields = .ok tags
          ∧ resource = .handle ⟨name, type, write config, s.scope.pathBelow (.str name), tags,
            (Fields.getD (write config) "location").orElse p.location, p.environment⟩ := by
  constructor
  · intro h
    obtain ⟨path, s₁, hchild, h⟩ := run_bind_ok.1 h
    obtain ⟨admits, rfl, rfl⟩ := SiteWork.run_createChild_ok.1 hchild
    obtain ⟨tags, s₂, hread, h⟩ := run_bind_ok.1 h
    obtain ⟨htags, rfl⟩ := SiteWork.run_ofExcept_ok.1 hread
    cases h
    exact ⟨admits, rfl, tags, htags, rfl⟩
  · rintro ⟨admits, rfl, tags, htags, rfl⟩
    have hchild := SiteWork.run_createChild_ok.2 ⟨admits, rfl, rfl⟩
    refine run_bind_ok.2 ⟨_, _, hchild, run_bind_ok.2 ⟨tags, _, ?_, rfl⟩⟩
    exact SiteWork.run_ofExcept_ok.2 ⟨htags, rfl⟩

-- =========================================================== providing

/-- What was provided was read and found valid. -/
theorem valid_of_provide {resource : Resource} (new : p.existing.lookup r.resourceKey = none)
    (provided : (k.provide r p).run s = (.ok resource, s')) :
    ∃ config verdict, k.read r.config = .ok config ∧ k.validateMerged r = .ok verdict
      ∧ verdict.valid = true := by
  unfold provide at provided
  rw [new] at provided
  obtain ⟨verdict, s₁, hverdict, provided⟩ := run_bind_ok.1 provided
  dsimp only at provided
  split at provided
  next => cases provided
  next hvalid =>
    obtain ⟨_, s₂, -, provided⟩ := run_bind_ok.1 provided
    obtain ⟨config, s₃, hconfig, -⟩ := run_bind_ok.1 provided
    exact ⟨config, verdict, (SiteWork.run_ofExcept_ok.1 hconfig).1,
      (SiteWork.run_ofExcept_ok.1 hverdict).1, by simpa using hvalid⟩

/-- A provided resource that was not there before is the handle that the
kind describes, and its scope is the one child more. -/
theorem run_provide_ok (handles : k.MakesHandles) {resource : Resource}
    (new : p.existing.lookup r.resourceKey = none)
    (provided : (k.provide r p).run s = (.ok resource, s')) :
    ∃ h, k.Describes p s.scope r h ∧ s.scope.Admits [h.name] ∧ resource = .handle h
      ∧ s'.scope = s.scope.grown [h.name] := by
  obtain ⟨config, verdict, hread, haccepts, hvalid⟩ := valid_of_provide new provided
  rw [provide_of_valid hread haccepts hvalid, new] at provided
  obtain ⟨_, s₁, hwarned, provided⟩ := run_bind_ok.1 provided
  cases hwarned
  obtain ⟨name, s₂, hnamed, provided⟩ := run_bind_ok.1 provided
  obtain ⟨hname, rfl⟩ := SiteWork.run_ofExcept_ok.1 hnamed
  obtain ⟨made, s₃, hmade, provided⟩ := run_bind_ok.1 provided
  rw [SiteWork.run_rephrase_ok, handles, run_handle_ok] at hmade
  obtain ⟨admits, rfl, tags, htags, rfl⟩ := hmade
  obtain ⟨_, s₄, hreported, provided⟩ := run_bind_ok.1 provided
  cases hreported
  cases provided
  exact ⟨_, ⟨config, verdict, name, tags, hread, haccepts, hvalid, hname, htags, rfl⟩, admits, rfl,
    rfl⟩

/-- A handle that is described is provided, where the scope admits its
name. -/
theorem run_provide_of_describes (handles : k.MakesHandles)
    (new : p.existing.lookup r.resourceKey = none) (describes : k.Describes p s.scope r h)
    (admits : s.scope.Admits [h.name]) :
    ∃ s', (k.provide r p).run s = (.ok (.handle h), s') ∧ s'.scope = s.scope.grown [h.name] := by
  obtain ⟨config, verdict, name, tags, hread, haccepts, hvalid, hname, htags, rfl⟩ := describes
  rw [provide_of_valid hread haccepts hvalid, new]
  have hmade : ∀ t : Site σ, t.scope = s.scope → (k.make name config p).run t
      = (.ok (.handle ⟨name, k.type, k.write config, s.scope.pathBelow (.str name), tags,
          (Fields.getD (k.write config) "location").orElse p.location, p.environment⟩),
        { t with scope := s.scope.grown [name] }) := by
    intro t ht
    rw [handles, run_handle_ok, ht]
    exact ⟨admits, rfl, tags, htags, rfl⟩
  refine ⟨_, run_bind_ok.2 ⟨(), _, SiteWork.run_report _ _, run_bind_ok.2 ⟨name, _,
    SiteWork.run_ofExcept_ok.2 ⟨hname, rfl⟩, run_bind_ok.2 ⟨_, _,
      SiteWork.run_rephrase_ok.2 (hmade _ ?_), rfl⟩⟩⟩, ?_⟩
  · rfl
  · rfl

end Kind

-- =============================================================== standard

/-- The providers that come with the library, and generic ones that make
resources the way they do if nothing else is asked for. -/
inductive Provider.IsStandard : Provider σ → Prop where
  | builtIn {p} (comes : p ∈ Provider.builtIn) : IsStandard p
  | generic (setup : Generic.Setup σ) (usual : setup.make = none) :
      IsStandard setup.kind.provider

/-- A standard provider is a kind of resource that makes handles. -/
theorem Provider.IsStandard.exists_kind {p : Provider σ} (h : p.IsStandard) :
    ∃ (C : Type) (k : Kind σ C), k.MakesHandles ∧ p = k.provider := by
  cases h with
  | builtIn comes =>
      simp only [Provider.builtIn, List.mem_cons, List.not_mem_nil, or_false] at comes
      rcases comes with rfl | rfl | rfl
      · exact ⟨_, Cosmos.kind, rfl, rfl⟩
      · exact ⟨_, Functions.kind, rfl, rfl⟩
      · exact ⟨_, Storage.kind, rfl, rfl⟩
  | generic setup usual =>
      refine ⟨_, setup.kind, ?_, rfl⟩
      show setup.make.getD _ = _
      rw [usual]
      rfl

theorem Provider.IsStandard.repeatable {p : Provider σ} (h : p.IsStandard) : p.Repeatable := by
  obtain ⟨C, k, -, rfl⟩ := h.exists_kind
  exact k.repeatable

end Depot
