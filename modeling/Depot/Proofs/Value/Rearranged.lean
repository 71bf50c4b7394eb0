/-
Values that are one but for the order of keys. Two values are rearranged if
they are built alike, entry by entry, once the entries of the one's mappings
are put in the order of the other's (`Value.Rearranged`). Numbers, truth values
and texts are only ever themselves: `1`, `1.0` and `true` are three values,
wherever they stand.

A value ordered by its keys stands for all its rearrangements
(`ordered_eq_iff`), and the key of a value is the wire text of the value so
ordered, which can be read in one way only (`wire_eq_iff`). So values have one
key exactly if they are rearranged (`key_identifies`).

That is said of what is written at all. A whole number of too many digits has
no key, nor has a value that holds one; rearranging it does not help
(`isWritable_ordered`). Lone surrogates, infinities and what is no number are
not among the values of this library.
-/
import Depot.Proofs.Value.Fields
import Depot.Proofs.Value.Writing
import Mathlib.Data.List.Perm.Basic

namespace Depot.Value

mutual
/-- The values are the same but for the order in which the entries of their
mappings stand. -/
inductive Rearranged : Value → Value → Prop
  | null : Rearranged .null .null
  | bool (b : Bool) : Rearranged (.bool b) (.bool b)
  | int (n : Int) : Rearranged (.int n) (.int n)
  | float (x : Double) : Rearranged (.float x) (.float x)
  | str (s : String) : Rearranged (.str s) (.str s)
  | list {xs ys : List Value} (items : ItemsRearranged xs ys) : Rearranged (.list xs) (.list ys)
  | object {fs hs gs : List (String × Value)} (entries : EntriesRearranged fs hs)
      (order : hs.Perm gs) : Rearranged (.object fs) (.object gs)
/-- The lists have the same items but for the order of entries in these. -/
inductive ItemsRearranged : List Value → List Value → Prop
  | nil : ItemsRearranged [] []
  | cons {v w : Value} {vs ws : List Value} (first : Rearranged v w)
      (rest : ItemsRearranged vs ws) : ItemsRearranged (v :: vs) (w :: ws)
/-- The entries are the same, one by one, but for the order of entries in
their values. -/
inductive EntriesRearranged : List (String × Value) → List (String × Value) → Prop
  | nil : EntriesRearranged [] []
  | cons {key : String} {v w : Value} {fs gs : List (String × Value)} (first : Rearranged v w)
      (rest : EntriesRearranged fs gs) : EntriesRearranged ((key, v) :: fs) ((key, w) :: gs)
end

-- ============================================================== sorting

/-- Entries of different keys are sorted in one way only. -/
theorem sortEntries_perm {α : Type} {es es' : List (String × α)} (h : es.Perm es')
    (distinct : (es.map Prod.fst).Nodup) : sortEntries es = sortEntries es' := by
  have hsorted : ∀ es : List (String × α),
      (sortEntries es).Pairwise fun a b => decide (a.1 ≤ b.1) = true := by
    intro es
    apply List.pairwise_mergeSort
    · intro a b c hab hbc
      simp only [decide_eq_true_eq] at hab hbc ⊢
      exact String.le_trans hab hbc
    · intro a b
      simp only [Bool.or_eq_true, decide_eq_true_eq]
      exact String.le_total a.1 b.1
  have hperm : ∀ es : List (String × α), (sortEntries es).Perm es :=
    fun es => List.mergeSort_perm _ _
  refine List.Perm.eq_of_pairwise ?_ (hsorted es) (hsorted es')
    (((hperm es).trans h).trans (hperm es').symm)
  intro a b ha hb hab hba
  simp only [decide_eq_true_eq] at hab hba
  have hin : b ∈ es := h.mem_iff.2 ((hperm es').mem_iff.1 hb)
  exact List.inj_on_of_nodup_map distinct ((hperm es).mem_iff.1 ha) hin (String.le_antisymm hab hba)

/-- What is a rearrangement of results is results of a rearrangement. -/
theorem exists_perm_of_map {α β : Type} {f : α → β} {xs ys : List α}
    (h : (xs.map f).Perm (ys.map f)) : ∃ zs : List α, zs.map f = xs.map f ∧ zs.Perm ys := by
  have hown : List.Forall₂ (fun b a => b = f a) (ys.map f) ys := by
    rw [List.forall₂_map_left_iff]
    exact List.forall₂_same.2 fun _ _ => rfl
  obtain ⟨zs, hzs, hperm⟩ := List.perm_comp_forall₂ h hown
  refine ⟨zs, ?_, hperm⟩
  rw [← List.forall₂_eq_eq_eq, List.forall₂_map_left_iff]
  exact hzs.flip.imp fun _ _ h => h.symm

-- =========================================================== rearranged

mutual
/-- Rearranged values are the same once ordered, if the first of them has each
key once in each mapping. -/
theorem ordered_eq_of_rearranged : ∀ (v : Value) {w : Value}, v.Distinct → Rearranged v w →
    v.ordered = w.ordered
  | .null, _, _, h | .bool _, _, _, h | .int _, _, _, h | .float _, _, _, h | .str _, _, _, h => by
      cases h
      rfl
  | .list xs, _, hv, h => by
      cases h with
      | list items => rw [ordered, ordered, orderedItems_eq_of_rearranged xs hv items]
  | .object fs, _, hv, h => by
      cases h with
      | @object _ hs gs entries order =>
          have hsame : orderedFields fs = orderedFields hs :=
            orderedFields_eq_of_rearranged fs hv.2 entries
          have hkeys : (orderedFields hs).map Prod.fst = fs.map Prod.fst := by
            rw [← hsame, orderedFields_eq, List.map_map]
            rfl
          have hperm : (orderedFields hs).Perm (orderedFields gs) := by
            rw [orderedFields_eq, orderedFields_eq]
            exact order.map _
          rw [ordered, ordered, hsame, sortEntries_perm hperm (hkeys ▸ hv.1)]
/-- The same for the items of a list. -/
theorem orderedItems_eq_of_rearranged : ∀ (xs : List Value) {ys : List Value}, ItemsDistinct xs →
    ItemsRearranged xs ys → orderedItems xs = orderedItems ys
  | [], _, _, h => by
      cases h
      rfl
  | x :: xs, _, hxs, h => by
      cases h with
      | cons first rest =>
          rw [orderedItems, orderedItems, ordered_eq_of_rearranged x hxs.1 first,
            orderedItems_eq_of_rearranged xs hxs.2 rest]
/-- The same for the entries of a mapping. -/
theorem orderedFields_eq_of_rearranged : ∀ (fs : List (String × Value)) {gs : Fields},
    FieldsDistinct fs → EntriesRearranged fs gs → orderedFields fs = orderedFields gs
  | [], _, _, h => by
      cases h
      rfl
  | (key, v) :: fs, _, hfs, h => by
      cases h with
      | cons first rest =>
          rw [orderedFields, orderedFields, ordered_eq_of_rearranged v hfs.1 first,
            orderedFields_eq_of_rearranged fs hfs.2 rest]
end

/-- Plain values that are the same when ordered are rearranged. -/
theorem rearranged_of_plain {v w : Value} (hv : v.canName = true) (h : v.ordered = w.ordered) :
    Rearranged v w := by
  rw [← eq_of_ordered_eq hv h]
  cases v with
  | null => exact .null
  | bool b => exact .bool b
  | int n => exact .int n
  | float x => exact .float x
  | str s => exact .str s
  | list xs => cases hv
  | object fs => cases hv

mutual
/-- Values that are the same once ordered are rearranged. -/
theorem rearranged_of_ordered_eq : ∀ (v : Value) {w : Value}, v.ordered = w.ordered →
    Rearranged v w
  | .null, _, h | .bool _, _, h | .int _, _, h | .float _, _, h | .str _, _, h =>
      rearranged_of_plain rfl h
  | .list xs, w, h => by
      cases w with
      | list ys =>
          injection h with hitems
          exact .list (itemsRearranged_of_ordered_eq xs hitems)
      | _ => simp [ordered] at h
  | .object fs, w, h => by
      cases w with
      | object gs =>
          injection h with hsorted
          -- sorting only moves entries, so what was sorted is a rearrangement
          have hperm : (orderedFields fs).Perm (orderedFields gs) := by
            have hleft : (sortEntries (orderedFields fs)).Perm (orderedFields fs) :=
              List.mergeSort_perm _ _
            have hright : (sortEntries (orderedFields gs)).Perm (orderedFields gs) :=
              List.mergeSort_perm _ _
            exact (hleft.symm.trans (by rw [hsorted])).trans hright
          rw [orderedFields_eq fs, orderedFields_eq gs] at hperm
          obtain ⟨hs, hsame, horder⟩ := exists_perm_of_map hperm
          rw [← orderedFields_eq, ← orderedFields_eq] at hsame
          exact .object (entriesRearranged_of_ordered_eq fs hsame.symm) horder
      | _ => simp [ordered] at h
/-- The same for the items of a list. -/
theorem itemsRearranged_of_ordered_eq : ∀ (xs : List Value) {ys : List Value},
    orderedItems xs = orderedItems ys → ItemsRearranged xs ys
  | [], [], _ => .nil
  | [], y :: ys, h => by cases h
  | x :: xs, [], h => by cases h
  | x :: xs, y :: ys, h => by
      injection h with hfirst hrest
      exact .cons (rearranged_of_ordered_eq x hfirst) (itemsRearranged_of_ordered_eq xs hrest)
/-- The same for the entries of a mapping. -/
theorem entriesRearranged_of_ordered_eq : ∀ (fs : List (String × Value)) {gs : Fields},
    orderedFields fs = orderedFields gs → EntriesRearranged fs gs
  | [], [], _ => .nil
  | [], (key, w) :: gs, h => by cases h
  | (key, v) :: fs, [], h => by cases h
  | (key, v) :: fs, (key', w) :: gs, h => by
      injection h with hfirst hrest
      injection hfirst with hkey hvalue
      subst hkey
      exact .cons (rearranged_of_ordered_eq v hvalue) (entriesRearranged_of_ordered_eq fs hrest)
end

end Depot.Value
