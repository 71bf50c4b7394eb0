/-
Likeness of values. Values are alike if they are equal up to the order of
keys, up to the order and repetition of list items, and up to whether a
number is written whole or as a fraction (`Value.alike`). It is how far two
results may differ that come from the same values in another order.

Likeness is coarser than identity: values of one wire text are alike
(`alike_of_wire_eq`), if their mappings have each key once.
-/
import Depot.Proofs.Value.Fields
import Depot.Proofs.Value.Identity
import Depot.Proofs.Value.Order

namespace Depot

namespace Value

-- ============================================================ likeness

mutual
/-- Likeness of values. -/
def alike : Value → Value → Bool
  | .list xs, .list ys => eachLike xs ys && ys.all fun y => anyLike xs y
  | .object fs, .object gs => entriesLike fs gs && gs.all fun e => Fields.has fs e.1
  | .int n, w => w.isNumber && (Value.int n).same w
  | .float x, w => w.isNumber && (Value.float x).same w
  | v, w => decide (v = w)
/-- Every item has one like it in the other list. -/
def eachLike : List Value → List Value → Bool
  | [], _ => true
  | x :: xs, ys => (ys.any fun y => alike x y) && eachLike xs ys
/-- Some item is like a value. -/
def anyLike : List Value → Value → Bool
  | [], _ => false
  | x :: xs, y => alike x y || anyLike xs y
/-- Every entry has one like it under its key in the other mapping. -/
def entriesLike : List (String × Value) → List (String × Value) → Bool
  | [], _ => true
  | (k, v) :: fs, gs => (match Fields.get? gs k with
      | some w => alike v w
      | none => false) && entriesLike fs gs
end

/-- Lists are alike if the items of either have their like in the other. -/
theorem alike_lists {xs ys : List Value} : (Value.list xs).alike (.list ys) = true
    ↔ (∀ x ∈ xs, ∃ y ∈ ys, x.alike y = true) ∧ ∀ y ∈ ys, ∃ x ∈ xs, x.alike y = true := by
  have heach : ∀ xs, eachLike xs ys = true ↔ ∀ x ∈ xs, ∃ y ∈ ys, x.alike y = true := by
    intro xs
    induction xs with
    | nil => simp [eachLike]
    | cons x xs ih => simp [eachLike, ih]
  have hany : ∀ (xs : List Value) y, anyLike xs y = true ↔ ∃ x ∈ xs, x.alike y = true := by
    intro xs y
    induction xs with
    | nil => simp [anyLike]
    | cons x xs ih => simp [anyLike, ih]
  rw [alike, Bool.and_eq_true, heach, List.all_eq_true]
  simp only [hany]

/-- Mappings are alike if they have the same keys with like values. -/
theorem alike_objects {fs gs : Fields} : (Value.object fs).alike (.object gs) = true
    ↔ (∀ e ∈ fs, ∃ w, Fields.get? gs e.1 = some w ∧ e.2.alike w = true)
      ∧ ∀ e ∈ gs, ∃ v, Fields.get? fs e.1 = some v := by
  have heach : ∀ fs : Fields, entriesLike fs gs = true
      ↔ ∀ e ∈ fs, ∃ w, Fields.get? gs e.1 = some w ∧ e.2.alike w = true := by
    intro fs
    induction fs with
    | nil => simp [entriesLike]
    | cons e fs ih =>
        obtain ⟨k, v⟩ := e
        rw [entriesLike, Bool.and_eq_true, ih, List.forall_mem_cons]
        cases Fields.get? gs k with
        | none => simp
        | some w => simp
  rw [alike, Bool.and_eq_true, heach, List.all_eq_true]
  simp only [Fields.has, Option.isSome_iff_exists]

/-- Numbers are alike if they have one size. -/
theorem alike_numbers {v w : Value} (hv : v.isNumber = true) (hw : w.isNumber = true) :
    v.alike w = true ↔ v.size = w.size := by
  rw [← same_counting (counts_of_isNumber hv) (counts_of_isNumber hw)]
  cases v with
  | int n => rw [alike, hw, Bool.true_and]
  | float x => rw [alike, hw, Bool.true_and]
  | _ => cases hv

-- ============================================================ identity

/-- Ordered entries are the entries, each with its value ordered. -/
theorem mem_sortEntries_ordered {fs : Fields} {key : String} {w : Value} :
    (key, w) ∈ sortEntries (orderedFields fs) ↔ ∃ v, (key, v) ∈ fs ∧ v.ordered = w := by
  unfold sortEntries
  rw [(List.mergeSort_perm _ _).mem_iff, orderedFields_eq, List.mem_map]
  constructor
  · rintro ⟨⟨k, v⟩, hmem, heq⟩
    injection heq with hk hv
    exact ⟨v, hk ▸ hmem, hv⟩
  · rintro ⟨v, hmem, rfl⟩
    exact ⟨(key, v), hmem, rfl⟩

/-- Plain values that are the same when ordered are alike. -/
theorem alike_of_plain {v w : Value} (hv : v.canName = true) (h : v.ordered = w.ordered) :
    v.alike w = true := by
  rw [← eq_of_ordered_eq hv h]
  cases v with
  | int n => exact (alike_numbers rfl rfl).2 rfl
  | float x => exact (alike_numbers rfl rfl).2 rfl
  | list xs => cases hv
  | object fs => cases hv
  | _ => simp [alike]

mutual
/-- Values that are the same once ordered are alike. -/
theorem alike_of_ordered_eq : ∀ (v : Value) {w : Value}, w.Distinct → v.ordered = w.ordered →
    v.alike w = true
  | .null, _, _, h | .bool _, _, _, h | .int _, _, _, h | .float _, _, _, h | .str _, _, _, h =>
      alike_of_plain rfl h
  | .list xs, .list ys, hw, h => by
      have hitems : xs.map ordered = ys.map ordered := by
        rw [← orderedItems_eq, ← orderedItems_eq]
        injection h
      rw [Distinct, itemsDistinct_iff] at hw
      refine alike_lists.2 ⟨fun x hx => ?_, fun y hy => ?_⟩
      · obtain ⟨y, hy, hxy⟩ := List.mem_map.1 (hitems ▸ List.mem_map_of_mem hx)
        exact ⟨y, hy, alike_of_item xs x hx (hw y hy) hxy.symm⟩
      · obtain ⟨x, hx, hxy⟩ := List.mem_map.1 (hitems.symm ▸ List.mem_map_of_mem hy)
        exact ⟨x, hx, alike_of_item xs x hx (hw y hy) hxy⟩
  | .object fs, .object gs, hw, h => by
      have hsorted : sortEntries (orderedFields fs) = sortEntries (orderedFields gs) := by
        injection h
      obtain ⟨hnodup, hvalues⟩ := hw
      rw [fieldsDistinct_iff] at hvalues
      refine alike_objects.2 ⟨fun e he => ?_, fun e he => ?_⟩
      · obtain ⟨w, hmem, hordered⟩ := mem_sortEntries_ordered.1
          (hsorted ▸ mem_sortEntries_ordered.2 ⟨e.2, he, rfl⟩)
        exact ⟨w, Table.lookup_of_mem hnodup hmem,
          alike_of_entry fs e he (hvalues _ hmem) hordered.symm⟩
      · obtain ⟨v, hmem, -⟩ := mem_sortEntries_ordered.1
          (hsorted.symm ▸ mem_sortEntries_ordered.2 ⟨e.2, he, rfl⟩)
        exact Table.exists_lookup (e := (e.1, v)) hmem
  | .list xs, .null, _, h | .list xs, .bool _, _, h | .list xs, .int _, _, h
  | .list xs, .float _, _, h | .list xs, .str _, _, h | .list xs, .object _, _, h
  | .object fs, .null, _, h | .object fs, .bool _, _, h | .object fs, .int _, _, h
  | .object fs, .float _, _, h | .object fs, .str _, _, h | .object fs, .list _, _, h => by
      simp [ordered] at h
/-- The same for the items of a list. -/
theorem alike_of_item : ∀ (xs : List Value), ∀ x ∈ xs, ∀ {w : Value}, w.Distinct →
    x.ordered = w.ordered → x.alike w = true
  | x :: xs, y, hy, w, hw, h => by
      rcases List.mem_cons.1 hy with hyx | hy
      · rw [hyx] at h ⊢
        exact alike_of_ordered_eq x hw h
      · exact alike_of_item xs y hy hw h
/-- The same for the values of a mapping. -/
theorem alike_of_entry : ∀ (fs : List (String × Value)), ∀ e ∈ fs, ∀ {w : Value}, w.Distinct →
    e.2.ordered = w.ordered → e.2.alike w = true
  | (k, v) :: fs, e, he, w, hw, h => by
      rcases List.mem_cons.1 he with hev | he
      · rw [hev] at h ⊢
        exact alike_of_ordered_eq v hw h
      · exact alike_of_entry fs e he hw h
end

/-- Values of one identity are alike. -/
theorem alike_of_wire_eq {v w : Value} (hw : w.Distinct) (h : v.wire = w.wire) :
    v.alike w = true :=
  alike_of_ordered_eq v hw ((wire_eq_iff v w).1 h)

theorem alike_refl {v : Value} (hv : v.Distinct) : v.alike v = true := alike_of_wire_eq hv rfl

-- the order of keys, repetition of items and the form of numbers do not count
example : (Value.object [("a", .list [.int 0, .int 1]), ("b", .null)]).alike
    (.object [("b", .null), ("a", .list [.int 1, .float (Double.zero false), .int 0])]) = true := by
  decide +kernel

end Value

end Depot
