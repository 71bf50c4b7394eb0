/-
Values as names of table entries. Equality across kinds (`Value.same`) is
not equality of values: 1, 1.0 and true are one name. What a value names
is read off it once and for all by `Value.name?`: nothing for lists and
mappings, else null, an exact number or a text. Two values that can name
an entry are equal across kinds exactly when they name the same
(`same_iff`), and everything that tables need, that being the same entry
is an equivalence, follows from equality of names.
-/
import Depot.Value.Order
import Mathlib.Data.Rat.Lemmas
import Mathlib.Algebra.Order.Field.Rat
import Mathlib.Tactic.FieldSimp

namespace Depot

/-- What a value names. -/
inductive Name where
  | null
  | number (q : ℚ)
  | text (s : String)
  deriving DecidableEq

-- ============================================================ quotients

namespace Double

/-- The quotient that a pair stands for. -/
def quotient (r : Int × Nat) : ℚ := r.1 / r.2

/-- Equality of quotients by cross-multiplication. -/
theorem ratioSame_iff {x y : Int × Nat} (hx : 0 < x.2) (hy : 0 < y.2) :
    ratioSame x y = true ↔ quotient x = quotient y := by
  have hx' : (x.2 : ℚ) ≠ 0 := by exact_mod_cast hx.ne'
  have hy' : (y.2 : ℚ) ≠ 0 := by exact_mod_cast hy.ne'
  unfold ratioSame quotient
  rw [decide_eq_true_iff, div_eq_div_iff hx' hy']
  exact_mod_cast Iff.rfl

theorem ratio_pos (x : Double) : 0 < x.ratio.2 := by
  show 0 < 2 ^ (-x.exponent).toNat
  exact Nat.two_pow_pos _

end Double

namespace Value

/-- A number's quotient has a positive denominator. -/
theorem ratio?_pos {v : Value} {r : Int × Nat} (h : v.ratio? = some r) : 0 < r.2 := by
  cases v with
  | bool b => cases h; exact Nat.one_pos
  | int n => cases h; exact Nat.one_pos
  | float x => cases h; exact x.ratio_pos
  | _ => cases h

-- =============================================================== names

/-- What the value names, if it can name a table entry. -/
def name? : Value → Option Name
  | .null => some .null
  | .str s => some (.text s)
  | .list _ | .object _ => none
  | .bool b => some (.number (Double.quotient (if b then 1 else 0, 1)))
  | .int n => some (.number (Double.quotient (n, 1)))
  | .float x => some (.number (Double.quotient x.ratio))

/-- A number names its quotient. -/
theorem name?_of_ratio? {v : Value} {r : Int × Nat} (h : v.ratio? = some r) :
    v.name? = some (.number (Double.quotient r)) := by
  cases v with
  | bool b => cases h; rfl
  | int n => cases h; rfl
  | float x => cases h; rfl
  | _ => cases h

/-- What is no number names no number. -/
theorem name?_ne_of_ratio? {v : Value} (h : v.ratio? = none) (q : ℚ) :
    v.name? ≠ some (.number q) := by
  cases v with
  | bool b => cases h
  | int n => cases h
  | float x => cases h
  | _ => simp [name?]

/-- Equality across kinds of a number and another value. -/
private theorem same_number_iff {r : Int × Nat} (hr : 0 < r.2) (w : Value) :
    (match w.ratio? with | some r' => Double.ratioSame r r' | none => false) = true
      ↔ some (.number (Double.quotient r)) = w.name? := by
  cases hw : w.ratio? with
  | none =>
      constructor
      · intro h
        cases h
      · intro h
        exact absurd h.symm (name?_ne_of_ratio? hw _)
  | some r' =>
      rw [name?_of_ratio? hw, Double.ratioSame_iff hr (ratio?_pos hw)]
      simp

/-- A value that can name an entry is equal across kinds to what names
the same, and to nothing else. -/
theorem same_iff {v : Value} (hv : v.canName = true) (w : Value) :
    v.same w = true ↔ v.name? = w.name? := by
  cases v with
  | list xs => cases hv
  | object fs => cases hv
  | null => cases w with
    | null => simp [same, isNull, name?]
    | _ => simp [same, isNull, name?]
  | str s => cases w with
    | str t => simp [same, name?]
    | _ => simp [same, name?]
  | bool b => rw [same]; exact same_number_iff Nat.one_pos w
  | int n => rw [same]; exact same_number_iff Nat.one_pos w
  | float x => rw [same]; exact same_number_iff x.ratio_pos w

theorem canName_iff (v : Value) : v.canName = true ↔ v.name?.isSome = true := by
  cases v with
  | _ => simp [canName, name?]

/-- Only a value that can name an entry is equal to one that can. -/
theorem canName_of_same {v w : Value} (hv : v.canName = true) (h : v.same w = true) :
    w.canName = true := by
  rw [canName_iff, ← (same_iff hv w).1 h, ← canName_iff]
  exact hv

theorem same_refl {v : Value} (hv : v.canName = true) : v.same v = true :=
  (same_iff hv v).2 rfl

theorem same_comm {v w : Value} (hv : v.canName = true) (hw : w.canName = true) :
    v.same w = w.same v := by
  rw [Bool.eq_iff_iff, same_iff hv, same_iff hw]
  exact eq_comm

/-- Values that are the same are the same as the same values. -/
theorem same_congr_left {v w : Value} (hv : v.canName = true) (h : v.same w = true) (u : Value) :
    v.same u = w.same u := by
  rw [Bool.eq_iff_iff, same_iff hv, same_iff (canName_of_same hv h), (same_iff hv w).1 h]

/-- Only a value that can name an entry is equal to one that can, the
other way round. -/
theorem canName_of_same_right {v w : Value} (hw : w.canName = true) (h : v.same w = true) :
    v.canName = true := by
  cases v with
  | list xs => cases w with
    | list ys => cases hw
    | _ => simp [same] at h
  | object fs => cases w with
    | object gs => cases hw
    | _ => simp [same] at h
  | _ => rfl

/-- The same values are the same as values that are the same. -/
theorem same_congr_right {v w : Value} (hv : v.canName = true) (h : v.same w = true) (u : Value) :
    u.same v = u.same w := by
  by_cases hu : u.canName = true
  · rw [Bool.eq_iff_iff, same_iff hu, same_iff hu, (same_iff hv w).1 h]
  · have hleft : u.same v = false := by
      rw [Bool.eq_false_iff]
      exact fun h' => hu (canName_of_same_right hv h')
    have hright : u.same w = false := by
      rw [Bool.eq_false_iff]
      exact fun h' => hu (canName_of_same_right (canName_of_same hv h) h')
    rw [hleft, hright]

/-- A text is equal to nothing but itself. -/
theorem same_str_iff (v : Value) (s : String) : v.same (.str s) = true ↔ v = .str s := by
  cases v with
  | str t => simp [same]
  | null => simp [same, isNull]
  | _ => simp [same, ratio?]

end Value

end Depot
