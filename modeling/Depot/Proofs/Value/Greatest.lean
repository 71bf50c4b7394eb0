/-
The greatest of values. A value can only be the greatest of several if it can
be ordered, and then it can be compared with itself (`compare_self`). So it is
the greatest of any number of its copies as well (`greatest_copies`). What
counts as a number always can be, so among numbers there is a greatest one
(`exists_greatest`).

Being equal to itself is no matter of course. Mappings are equal entry by
entry, as their keys lead to values, so it takes that they have each key once
(`same_self`).
-/
import Depot.Proofs.Value.Alike
import Depot.Proofs.Value.Order
import Depot.Proofs.Work

namespace Depot.Value

-- ====================================================== one and the same

mutual
/-- A value is equal to itself. -/
theorem same_self : ∀ v : Value, v.Distinct → v.same v = true
  | .null, _ | .bool _, _ | .int _, _ | .float _, _ | .str _, _ => same_refl rfl
  | .list xs, h => sameItems_self xs h
  | .object fs, h => by
      rw [same, decide_eq_true rfl, Bool.true_and]
      exact sameFields_self fs fs h.2 fun e he => Table.lookup_of_mem h.1 he
/-- The same for the items of a list. -/
theorem sameItems_self : ∀ xs : List Value, ItemsDistinct xs → sameItems xs xs = true
  | [], _ => rfl
  | x :: xs, h => by rw [sameItems, same_self x h.1, sameItems_self xs h.2, Bool.true_and]
/-- The same for entries whose keys lead to their values. -/
theorem sameFields_self : ∀ fs gs : List (String × Value), FieldsDistinct fs →
    (∀ e ∈ fs, Fields.get? gs e.1 = some e.2) → sameFields fs gs = true
  | [], _, _, _ => rfl
  | (k, v) :: fs, gs, h, hleads => by
      obtain ⟨hfirst, hrest⟩ := List.forall_mem_cons.1 hleads
      rw [sameFields, hfirst, sameFields_self fs gs h.2 hrest, Bool.and_true]
      exact same_self v h.1
end

/-- Items that have distinct keys compare as equal to themselves. -/
theorem compareItems_self (c : Comparison) {xs : List Value} (h : ItemsDistinct xs) :
    compareItems c xs xs = .ok (c.holds .eq) := by
  induction xs with
  | nil => rfl
  | cons x xs ih => rw [compareItems, if_pos (same_self x h.1), ih h.2]

-- ================================================================= order

/-- Whether there are values that a value can be compared with. -/
def hasOrder : Value → Bool
  | .null | .object _ => false
  | _ => true

theorem hasOrder_of_compare {c : Comparison} {v w : Value} {b : Bool}
    (h : compare c v w = .ok b) : v.hasOrder = true ∧ w.hasOrder = true := by
  cases v <;> cases w <;> first | exact ⟨rfl, rfl⟩ | cases h

theorem ratioOrder_self (r : Int × Nat) : ratioOrder r r = .eq := by
  simp [ratioOrder, Double.ratioBelow, Double.ratioSame]

/-- A value that can be ordered is neither below nor above itself. -/
theorem compare_self (c : Comparison) {v : Value} (hdistinct : v.Distinct)
    (horder : v.hasOrder = true) : compare c v v = .ok (c.holds .eq) := by
  cases v with
  | null | object fs => cases horder
  | list xs => exact compareItems_self c hdistinct
  | str s => simp [compare, textOrder]
  | bool b | int n | float x => simp [compare, ratio?, ratioOrder_self]

-- ============================================================== greatest

/-- The greater of two values, the first of equal ones. -/
def greater (best w : Value) : Except Fault Value := do
  return if ← compare .above w best then w else best

theorem greatest_cons (v : Value) (vs : List Value) :
    greatest (v :: vs) = vs.foldlM greater v := rfl

/-- The greater of two values has an order. -/
theorem hasOrder_of_greater {best w v : Value} (h : greater best w = .ok v) :
    v.hasOrder = true := by
  obtain ⟨above, habove, h⟩ := bind_eq_ok.1 h
  obtain ⟨hw, hbest⟩ := hasOrder_of_compare habove
  cases h
  cases above with
  | true => exact hw
  | false => exact hbest

/-- The greatest of several values has an order, if the first has. -/
theorem hasOrder_of_foldlM {vs : List Value} {v best : Value} (horder : v.hasOrder = true)
    (h : vs.foldlM greater v = .ok best) : best.hasOrder = true := by
  induction vs generalizing v with
  | nil =>
      cases h
      exact horder
  | cons w vs ih =>
      rw [List.foldlM_cons] at h
      obtain ⟨next, hnext, h⟩ := bind_eq_ok.1 h
      exact ih (hasOrder_of_greater hnext) h

/-- The greatest of several values can be ordered. -/
theorem hasOrder_of_greatest {v w best : Value} {vs : List Value}
    (h : greatest (v :: w :: vs) = .ok best) : best.hasOrder = true := by
  rw [greatest_cons, List.foldlM_cons] at h
  obtain ⟨next, hnext, h⟩ := bind_eq_ok.1 h
  exact hasOrder_of_foldlM (hasOrder_of_greater hnext) h

/-- A value that can be ordered is the greatest of its copies. -/
theorem greatest_copies {v : Value} (hdistinct : v.Distinct) (horder : v.hasOrder = true) {n : Nat}
    (hsome : 0 < n) : greatest (List.replicate n v) = .ok v := by
  obtain ⟨n, rfl⟩ := Nat.exists_eq_succ_of_ne_zero (Nat.ne_of_gt hsome)
  have hagain : greater v v = .ok v := by
    unfold greater
    rw [compare_self .above hdistinct horder]
    rfl
  rw [List.replicate_succ, greatest_cons]
  induction n with
  | zero => rfl
  | succ n ih =>
      rw [List.replicate_succ, List.foldlM_cons, hagain]
      exact ih n.succ_pos

-- ============================================================== numbers

/-- Of two numbers the second is greater only if it has the greater size. -/
theorem greater_of_numbers {best w : Value} (hbest : best.Counts) (hw : w.Counts) :
    greater best w = .ok (if best.size < w.size then w else best) := by
  unfold greater
  rw [compare_above hw hbest]
  exact congrArg Except.ok (by simp)

/-- Among what counts as a number there is a greatest one. -/
theorem exists_greatest {vs : List Value} (given : vs ≠ [])
    (numbers : ∀ v ∈ vs, v.Counts) :
    ∃ best ∈ vs, greatest vs = .ok best ∧ ∀ v ∈ vs, v.size ≤ best.size := by
  obtain ⟨v, vs, rfl⟩ := List.exists_cons_of_ne_nil given
  rw [greatest_cons]
  induction vs generalizing v with
  | nil => exact ⟨v, by simp, rfl, by simp⟩
  | cons w vs ih =>
      rw [List.foldlM_cons, greater_of_numbers (numbers v (by simp)) (numbers w (by simp))]
      by_cases hlt : v.size < w.size
      · rw [if_pos hlt]
        obtain ⟨best, hin, hgreatest, hmost⟩ := ih w (by simp) fun u hu => numbers u (by simp [hu])
        refine ⟨best, List.mem_cons_of_mem v hin, hgreatest, List.forall_mem_cons.2 ⟨?_, hmost⟩⟩
        exact hlt.le.trans (hmost w (by simp))
      · rw [if_neg hlt]
        obtain ⟨best, hin, hgreatest, hmost⟩ := ih v (by simp) fun u hu => by
          rcases List.mem_cons.1 hu with rfl | hu
          · exact numbers u (by simp)
          · exact numbers u (by simp [hu])
        obtain ⟨hfirst, hrest⟩ := List.forall_mem_cons.1 hmost
        refine ⟨best, ?_, hgreatest, ?_⟩
        · rcases List.mem_cons.1 hin with rfl | hin
          · simp
          · simp [hin]
        · exact List.forall_mem_cons.2 ⟨hfirst, List.forall_mem_cons.2
            ⟨(not_lt.1 hlt).trans hfirst, hrest⟩⟩

end Depot.Value
