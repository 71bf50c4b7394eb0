/-
What holds of every backend that is made and used in any way: its registry
keeps its index, and its definitions stand under their own ids, which are
names and are all different. Each move keeps this (`Move.coherent`), so
every session does (`Reachable.coherent`).
-/
import Depot.Proofs.Backend.Lifecycle
import Depot.Proofs.Provider.Index

namespace Depot

variable {σ : Type}

/-- A backend whose parts agree with each other. -/
structure Backend.Coherent (b : Backend σ) : Prop where
  indexed : b.registry.Indexed
  /-- Definitions stand under their ids. -/
  named : ∀ e ∈ b.definitions, e.1 = e.2.id ∧ e.1.canName = true
  /-- No two ids are the same. -/
  distinct : b.definitions.Pairwise fun e e' => e.1.same e'.1 = false

namespace Backend

/-- Of two definitions of a coherent backend no two stand under one id. -/
theorem Coherent.isMapping {b : Backend σ} (h : b.Coherent) : b.definitions.IsMapping :=
  ⟨fun e he => (h.named e he).2, h.distinct⟩

/-- A new backend is coherent. -/
theorem coherent_of_make {id : Value} {config : Config σ} {b : Backend σ} {journal : Journal}
    (h : make id config = (.ok b, journal)) : b.Coherent := by
  obtain ⟨r, hr, rfl⟩ := make_ok h
  refine ⟨?_, by simp, .nil⟩
  have hall := Registry.Indexed.empty.registerAll (config.providers.getD [])
  unfold Registry.ofList at hr
  split at hr
  next r' events hreg =>
    cases hr
    rw [hreg] at hall
    exact hall
  next => cases hr

/-- A move keeps a backend coherent. -/
theorem Move.coherent {b b' : Backend σ} (h : Move b b') (hb : b.Coherent) : b'.Coherent := by
  cases h with
  | @adds d _ hnew =>
      obtain ⟨hname, hfresh⟩ := Keyed.contains_eq_false hnew
      refine ⟨hb.indexed, ?_, (hb.isMapping.concat hname hfresh d).distinct⟩
      intro e he
      rcases List.mem_append.1 he with he | he
      · exact hb.named e he
      · rw [List.mem_singleton.1 he]
        exact ⟨rfl, hname⟩
  | registers offer => exact ⟨hb.indexed.register offer, hb.named, hb.distinct⟩
  | unregisters id => exact ⟨hb.indexed.unregister id, hb.named, hb.distinct⟩
  | fails _ => exact ⟨hb.indexed, hb.named, hb.distinct⟩
  | publishes p _ => exact ⟨hb.indexed, hb.named, hb.distinct⟩

/-- Any number of moves keeps a backend coherent. -/
theorem Moves.coherent {b b' : Backend σ} (h : Moves b b') (hb : b.Coherent) : b'.Coherent := by
  induction h with
  | refl => exact hb
  | tail _ last ih => exact last.coherent ih

end Backend

/-- A backend that was made and then used in some session. -/
def Backend.Reachable (b : Backend σ) : Prop :=
  ∃ id config b₀ journal desk ops, Backend.make id config = (.ok b₀, journal)
    ∧ (Session.run ⟨b₀, desk⟩ ops).backend = b

/-- A backend is coherent in every session. -/
theorem Backend.Reachable.coherent {b : Backend σ} (h : b.Reachable) : b.Coherent := by
  obtain ⟨id, config, b₀, journal, desk, ops, made, rfl⟩ := h
  exact (Session.moves_run _ ops).coherent (coherent_of_make made)

end Depot
