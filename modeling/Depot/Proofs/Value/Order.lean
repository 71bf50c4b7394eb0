/-
The order of numbers among values. Whole numbers and fractions compare by
what they are exactly, so every number has a size in the rationals
(`Value.size`) and comparing two numbers is comparing their sizes
(`compare_counting`); truth values count as numbers here (`Value.Counts`).
Where an extreme is sought, the greatest or the least, the one notion of
worth covers both.
-/
import Depot.Proofs.Value.Name

namespace Depot.Value

/-- The number that a value is. -/
def size (v : Value) : ℚ := (v.ratio?.map Double.quotient).getD 0

/-- How much a value is worth where the greater, or where the lesser one is
sought. -/
def Comparison.worth (c : Comparison) (v : Value) : ℚ :=
  match c with
  | .above | .atLeast => v.size
  | .below | .atMost => -v.size

/-- The value counts as a number: it is one, or a truth value. -/
def Counts (v : Value) : Prop := ∃ r, v.ratio? = some r

theorem size_of_ratio {v : Value} {r : Int × Nat} (h : v.ratio? = some r) :
    v.size = Double.quotient r := by
  rw [size, h]
  rfl

theorem size_int (n : Int) : (Value.int n).size = n := by
  rw [size_of_ratio (r := (n, 1)) rfl]
  simp [Double.quotient]

theorem counts_of_isNumber {v : Value} (h : v.isNumber = true) : v.Counts := by
  cases v with
  | int n => exact ⟨_, rfl⟩
  | float x => exact ⟨_, rfl⟩
  | _ => cases h

/-- The order of two quotients is that of the numbers. -/
theorem ratioOrder_eq {x y : Int × Nat} (hx : 0 < x.2) (hy : 0 < y.2) :
    ratioOrder x y = cmp (Double.quotient x) (Double.quotient y) := by
  have hx' : (0 : ℚ) < x.2 := by exact_mod_cast hx
  have hy' : (0 : ℚ) < y.2 := by exact_mod_cast hy
  have hbelow : Double.ratioBelow x y = true ↔ Double.quotient x < Double.quotient y := by
    unfold Double.ratioBelow Double.quotient
    rw [decide_eq_true_iff, div_lt_div_iff₀ hx' hy']
    exact_mod_cast Iff.rfl
  have hsame := Double.ratioSame_iff hx hy
  unfold ratioOrder cmp cmpUsing
  by_cases hlt : Double.quotient x < Double.quotient y
  · rw [if_pos (hbelow.2 hlt), if_pos hlt]
  · rw [if_neg (mt hbelow.1 hlt), if_neg hlt]
    by_cases heq : Double.quotient x = Double.quotient y
    · rw [if_pos (hsame.2 heq), if_neg (by rw [heq]; exact lt_irrefl _)]
    · rw [if_neg (mt hsame.1 heq), if_pos (lt_of_le_of_ne (not_lt.1 hlt) (Ne.symm heq))]

/-- What counts as a number compares with what counts as one, and with nothing
else. -/
theorem compare_of_ratio (c : Comparison) {v : Value} {r : Int × Nat} (hv : v.ratio? = some r)
    (w : Value) : compare c v w
      = match w.ratio? with
        | some q => .ok (c.holds (ratioOrder r q))
        | none => .error (noOrder c v w) := by
  cases v with
  | bool | int | float =>
      cases hv
      cases w <;> rfl
  | null | str | list | object => cases hv

/-- What counts as numbers compares by what the numbers are. -/
theorem compare_counting (c : Comparison) {v w : Value} (hv : v.Counts) (hw : w.Counts) :
    compare c v w = .ok (c.holds (cmp v.size w.size)) := by
  obtain ⟨r, hr⟩ := hv
  obtain ⟨q, hq⟩ := hw
  rw [compare_of_ratio c hr, hq, size_of_ratio hr, size_of_ratio hq]
  exact congrArg (fun o => Except.ok (c.holds o)) (ratioOrder_eq (ratio?_pos hr) (ratio?_pos hq))

/-- One value is below another if its size is less. -/
theorem compare_below {v w : Value} (hv : v.Counts) (hw : w.Counts) :
    compare .below v w = .ok (decide (v.size < w.size)) := by
  rw [compare_counting .below hv hw]
  exact congrArg Except.ok (decide_eq_decide.2 (cmp_eq_lt_iff _ _))

/-- One value is above another if its size is greater. -/
theorem compare_above {v w : Value} (hv : v.Counts) (hw : w.Counts) :
    compare .above v w = .ok (decide (w.size < v.size)) := by
  rw [compare_counting .above hv hw]
  exact congrArg Except.ok (decide_eq_decide.2 (cmp_eq_gt_iff _ _))

theorem compare_atMost_ints (a b : Int) : compare .atMost (.int a) (.int b) = .ok (a ≤ b) := by
  rw [compare_counting .atMost ⟨_, rfl⟩ ⟨_, rfl⟩, size_int, size_int]
  refine congrArg Except.ok (decide_eq_decide.2 ?_)
  rw [Ne, cmp_eq_gt_iff, not_lt]
  exact Int.cast_le

/-- What counts as numbers is equal where the numbers are. -/
theorem same_counting {v w : Value} (hv : v.Counts) (hw : w.Counts) :
    v.same w = true ↔ v.size = w.size := by
  obtain ⟨r, hr⟩ := hv
  obtain ⟨q, hq⟩ := hw
  have hname : v.canName = true := by
    rw [canName_iff, name?_of_ratio? hr]
    rfl
  rw [same_iff hname, name?_of_ratio? hr, name?_of_ratio? hq, size_of_ratio hr, size_of_ratio hq]
  simp

/-- The comparisons that look for an extreme. -/
def Comparison.IsStrict (c : Comparison) : Prop := c = .above ∨ c = .below

/-- A strict comparison decides by what values are worth to it. -/
theorem compare_worth {c : Comparison} (hc : c.IsStrict) {v w : Value}
    (hv : v.isNumber = true) (hw : w.isNumber = true) :
    compare c v w = .ok (decide (c.worth w < c.worth v)) := by
  have hv' := counts_of_isNumber hv
  have hw' := counts_of_isNumber hw
  rcases hc with rfl | rfl
  · exact compare_above hv' hw'
  · rw [compare_below hv' hw']
    exact congrArg Except.ok (decide_eq_decide.2 neg_lt_neg_iff.symm)

theorem same_ints (a b : Int) : (Value.int a).same (.int b) = decide (a = b) := by
  show decide (a * 1 = b * 1) = decide (a = b)
  rw [Int.mul_one, Int.mul_one]

end Depot.Value
