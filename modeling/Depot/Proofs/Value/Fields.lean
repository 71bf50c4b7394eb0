/-
Mappings through their one view, what stands under a key (`Fields.get?`).
Setting a key is what it is in any table (`put_eq`); dropping the entries
that are null changes nothing for a reader to whom null counts as nothing
(`getD_dropNulls`).
-/
import Depot.Proofs.Table
import Depot.Value.Basic

namespace Depot

namespace Fields

variable {fs : Fields} {key : String}

theorem get?_cons (k : String) (v : Value) (fs : Fields) (key : String) :
    get? ((k, v) :: fs) key = if key = k then some v else get? fs key := by
  unfold get?
  rw [List.lookup_cons]
  by_cases hk : key = k
  · rw [if_pos hk, beq_iff_eq.2 hk]
  · rw [if_neg hk, beq_eq_false_iff_ne.2 hk]

theorem get?_eq_none (h : key ∉ keys fs) : get? fs key = none := by
  induction fs with
  | nil => rfl
  | cons e fs ih =>
      obtain ⟨k, v⟩ := e
      have hk : key ≠ k := fun heq => h (by simp [keys, heq])
      rw [get?_cons, if_neg hk]
      exact ih fun hin => h (List.mem_cons_of_mem k hin)

/-- A mapping is a table of values. -/
theorem put_eq (fs : Fields) (key : String) (v : Value) : put fs key v = Table.put key v fs := by
  induction fs with
  | nil => rfl
  | cons e fs ih =>
      obtain ⟨k, w⟩ := e
      rw [put, Table.put, ih]

/-- A key leads to what was set for it; what other keys lead to is as it
was. -/
theorem get?_put (fs : Fields) (key : String) (v : Value) (key' : String) :
    get? (put fs key v) key' = if key' = key then some v else get? fs key' := by
  rw [put_eq]
  exact Table.lookup_put key v fs key'

theorem dropNulls_cons (k : String) (v : Value) (fs : Fields) :
    dropNulls ((k, v) :: fs) = if v = .null then dropNulls fs else (k, v) :: dropNulls fs := by
  unfold dropNulls
  cases v with
  | null => rfl
  | bool | int | float | str | list | object => rfl

theorem keys_dropNulls_subset (fs : Fields) : keys (dropNulls fs) ⊆ keys fs :=
  List.map_subset Prod.fst (List.filter_sublist (l := fs)).subset

/-- What stands under a key is not changed by dropping what is null. -/
theorem getD_dropNulls (distinct : (keys fs).Nodup) (key : String) :
    getD (dropNulls fs) key = getD fs key := by
  unfold getD
  induction fs with
  | nil => rfl
  | cons e fs ih =>
      obtain ⟨k, v⟩ := e
      obtain ⟨hk, hdistinct⟩ := List.nodup_cons.1 distinct
      rw [dropNulls_cons, get?_cons]
      by_cases hv : v = .null
      · rw [if_pos hv, ih hdistinct]
        by_cases heq : key = k
        · rw [if_pos heq, heq, get?_eq_none hk, hv]
          rfl
        · rw [if_neg heq]
      · rw [if_neg hv, get?_cons]
        by_cases heq : key = k
        · rw [if_pos heq, if_pos heq]
        · rw [if_neg heq, if_neg heq, ih hdistinct]

end Fields

namespace Value

theorem itemsDistinct_iff {xs : List Value} : ItemsDistinct xs ↔ ∀ x ∈ xs, x.Distinct := by
  induction xs with
  | nil => simp [ItemsDistinct]
  | cons x xs ih => simp [ItemsDistinct, ih]

theorem fieldsDistinct_iff {fs : Fields} : FieldsDistinct fs ↔ ∀ e ∈ fs, e.2.Distinct := by
  induction fs with
  | nil => simp [FieldsDistinct]
  | cons e fs ih =>
      obtain ⟨k, v⟩ := e
      rw [FieldsDistinct, ih, List.forall_mem_cons]

/-- What stands in a mapping has different keys in each mapping, if that
mapping has. -/
theorem distinct_of_get? {fs : Fields} {key : String} {v : Value}
    (h : (Value.object fs).Distinct) (hget : Fields.get? fs key = some v) : v.Distinct :=
  fieldsDistinct_iff.1 h.2 _ (Table.mem_of_lookup hget)

end Value

end Depot
