/-
Two merges of the same values. The values may come in another order and
from other sources; their ranks are either untouched or level in both
merges. Nothing that decides whether a merge is clear looks at more than
that, so both meet an unresolvable conflict or neither does
(`Merges.clear_iff`), as long as neither drops a path because something
there cannot be written.

With level ranks this compares a merge with the merge of a reordered list.
-/
import Depot.Proofs.Merge.Run

namespace Depot.Merge

/-- The same values up to their order, with the same ranks or with level
ones. -/
structure Parallel (shares shares' : List Share) : Prop where
  values : (shares.map Share.value).Perm (shares'.map Share.value)
  ranks : shares = shares' ∨ (Level shares ∧ Level shares')

/-- The values below a key are the fields of the values, without nulls. -/
theorem below_values (shares : List Share) (key : String) :
    (below shares key).map Share.value
      = ((shares.map Share.value).map fun v => v.field key).filter fun v => !v.isNull := by
  rw [below, List.filter_map, List.filter_map, List.filter_map, List.map_map, List.map_map]
  rfl

/-- Level shares stay level below a key. -/
theorem level_below {shares : List Share} (h : Level shares) (key : String) :
    Level (below shares key) := by
  have hrank : ∀ s ∈ below shares key, ∃ t ∈ shares, t.rank = s.rank := by
    intro s hs
    obtain ⟨t, ht, rfl⟩ := List.mem_map.1 (List.mem_filter.1 hs).1
    exact ⟨t, ht, rfl⟩
  intro s hs t ht
  obtain ⟨s', hs', hsr⟩ := hrank s hs
  obtain ⟨t', ht', htr⟩ := hrank t ht
  rw [← hsr, ← htr, h s' hs' t' ht']

namespace Parallel

variable {shares shares' : List Share} (h : Parallel shares shares')

include h

theorem symm : Parallel shares' shares :=
  ⟨h.values.symm, h.ranks.imp Eq.symm And.symm⟩

/-- Parallel shares are parallel below every key. -/
theorem below (key : String) : Parallel (below shares key) (Merge.below shares' key) := by
  refine ⟨?_, ?_⟩
  · rw [below_values, below_values]
    exact (h.values.map _).filter _
  · rcases h.ranks with rfl | ⟨hlevel, hlevel'⟩
    · exact .inl rfl
    · exact .inr ⟨level_below hlevel key, level_below hlevel' key⟩

theorem length_eq : shares.length = shares'.length := by
  have hlength := h.values.length_eq
  rwa [List.length_map, List.length_map] at hlength

/-- The value of a share is also there in the other merge. -/
theorem exists_value {s : Share} (hs : s ∈ shares) : ∃ s' ∈ shares', s'.value = s.value :=
  List.mem_map.1 (h.values.subset (List.mem_map_of_mem hs))

/-- What holds of all values on one side holds of all on the other. -/
theorem forall_values {P : Value → Prop} (hall : ∀ s ∈ shares, P s.value) :
    ∀ s ∈ shares', P s.value := by
  intro s hs
  obtain ⟨s', hs', hvalue⟩ := h.symm.exists_value hs
  exact hvalue ▸ hall s' hs'

/-- What holds of any two values on one side holds of any two on the other. -/
theorem forall_pairs {P : Value → Value → Prop}
    (hall : ∀ s ∈ shares, ∀ t ∈ shares, P s.value t.value) :
    ∀ s ∈ shares', ∀ t ∈ shares', P s.value t.value := by
  intro s hs
  obtain ⟨s', hs', hvalue⟩ := h.symm.exists_value hs
  exact h.forall_values (P := P s.value) fun t ht => hvalue ▸ hall s' hs' t ht

theorem mapped_iff : Mapped shares ↔ Mapped shares' :=
  ⟨h.forall_values (P := fun v => v.fields?.isSome = true),
    h.symm.forall_values (P := fun v => v.fields?.isSome = true)⟩

theorem sameKind_iff : SameKind shares ↔ SameKind shares' :=
  ⟨h.forall_pairs (P := fun v w => v.kind = w.kind),
    h.symm.forall_pairs (P := fun v w => v.kind = w.kind)⟩

theorem agree_iff : Agree shares ↔ Agree shares' :=
  ⟨h.forall_pairs (P := fun v w => v.wire = w.wire),
    h.symm.forall_pairs (P := fun v w => v.wire = w.wire)⟩

theorem level_iff : Level shares ↔ Level shares' := by
  rcases h.ranks with rfl | ⟨hlevel, hlevel'⟩
  · exact Iff.rfl
  · exact iff_of_true hlevel hlevel'

/-- A path is settled the same way on both sides. -/
theorem wayFor_eq (default : Strategy) (path : String) :
    wayFor default path (shares.map Share.value)
      = wayFor default path (shares'.map Share.value) := by
  unfold wayFor
  rw [h.values.all_eq, h.values.all_eq]

end Parallel

/-- Both merges meet an unresolvable conflict, or neither does. -/
theorem Merges.clear_iff {default : Strategy} {path : String} {shares shares' : List Share}
    {v v' : Value} {notes notes' : Ledger} (hmerges : Merges default path shares v notes)
    (hmerges' : Merges default path shares' v' notes') (h : Parallel shares shares')
    (hwritable : Writable shares) (hwritable' : Writable shares') :
    notes.Clear ↔ notes'.Clear := by
  induction hmerges generalizing shares' v' notes' with
  | settled mixed settles =>
      cases hmerges' with
      | settled mixed' settles' =>
          rw [settles.clear, settles'.clear, h.sameKind_iff, h.wayFor_eq, h.level_iff,
            h.agree_iff]
      | dropped mixed' drops' => exact absurd hwritable' drops'.unwritable
      | joined value' notes' mapped' several' => exact absurd (h.mapped_iff.2 mapped') mixed
  | dropped mixed drops => exact absurd hwritable drops.unwritable
  | joined value notes mapped several ih =>
      have ih := fun key hlong shares' v' notes' hmerges' hparallel =>
        @ih key hlong shares' v' notes' hmerges' hparallel (hwritable.below key)
      cases hmerges' with
      | settled mixed' settles' => exact absurd (h.mapped_iff.1 mapped) mixed'
      | dropped mixed' drops' => exact absurd (h.mapped_iff.1 mapped) mixed'
      | joined value' notes' mapped' several' =>
          rw [clear_joinedNotes, clear_joinedNotes]
          have hlong := fun key => congrArg (1 < ·) (h.below key).length_eq
          constructor
          · intro hclear key hkey
            have hkey' := (hlong key).mpr hkey
            exact (ih key hkey' _ _ _ (several' key hkey) (h.below key) (hwritable'.below key)).1
              (hclear key hkey')
          · intro hclear key hkey
            have hkey' := (hlong key).mp hkey
            exact (ih key hkey _ _ _ (several' key hkey') (h.below key) (hwritable'.below key)).2
              (hclear key hkey')

end Depot.Merge
