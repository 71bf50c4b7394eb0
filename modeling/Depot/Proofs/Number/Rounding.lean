/-
The numbers that round to a binary64 number. In quarters of a unit of its
last place they form an interval, closed when the mantissa is even and open
when it is odd (`Reaches`). Intervals of different numbers have no point in
common (`reaches_unique`): neighbours touch at most in an end, and of two
neighbours one is odd.

The decimal that is chosen as the shortest always lies in the interval of
its number (`reaches_shortest`), since every candidate is tested for it and
the exact value, the last resort, lies inside.
-/
import Depot.Number.Shortest
import Mathlib.Algebra.Order.Field.Rat
import Mathlib.Tactic.FieldSimp
import Mathlib.Tactic.Linarith
import Mathlib.Tactic.Positivity
import Mathlib.Tactic.Ring

namespace Depot.Double

-- ============================================================== scales

/-- The value of a decimal. -/
def Decimal.value (d : Decimal) : ℚ := d.digits * 10 ^ d.scale

/-- A quarter of a unit of the last place of `x`. -/
def quarter (x : Double) : ℚ := 2 ^ (x.exponent - 2)

theorem quarter_pos (x : Double) : 0 < x.quarter := by
  exact zpow_pos two_pos _

/-- A power as a quotient of powers whose exponents are natural. -/
theorem zpow_eq_div (b : ℚ) (e : ℤ) : b ^ e = b ^ e.toNat / b ^ (-e).toNat := by
  rcases le_total 0 e with h | h
  · have hneg : (-e).toNat = 0 := by omega
    rw [hneg, pow_zero, div_one, ← zpow_natCast, Int.toNat_of_nonneg h]
  · have hpos : e.toNat = 0 := by omega
    rw [hpos, pow_zero, ← zpow_natCast, Int.toNat_of_nonneg (by omega), zpow_neg, one_div, inv_inv]

/-- What `quarterOver` is a quotient of. -/
theorem quarterOver_eq (x : Double) (scale : Int) :
    0 < (x.quarterOver scale).2 ∧ ((x.quarterOver scale).1 : ℚ) / (x.quarterOver scale).2
      = x.quarter / 10 ^ scale := by
  have hden : 0 < (x.quarterOver scale).2 :=
    Nat.mul_pos (Nat.mul_pos four_pos (Nat.pow_pos two_pos)) (Nat.pow_pos (by norm_num))
  refine ⟨hden, ?_⟩
  have htwo : (2 : ℚ) ^ (x.exponent - 2) = 2 ^ x.exponent.toNat / 2 ^ (-x.exponent).toNat / 4 := by
    rw [zpow_sub₀ two_ne_zero, zpow_eq_div 2]
    norm_num
  have hten : (10 : ℚ) ^ scale = 10 ^ scale.toNat / 10 ^ (-scale).toNat :=
    zpow_eq_div 10 scale
  unfold quarter quarterOver
  rw [htwo, hten]
  push_cast [Nat.pow_eq]
  field_simp

-- =========================================================== intervals

/-- The number rounds to the magnitude of `x`. -/
def Reaches (x : Double) (q : ℚ) : Prop :=
  if x.mantissa % 2 = 0 then x.reach.1 * x.quarter ≤ q ∧ q ≤ x.reach.2 * x.quarter
  else x.reach.1 * x.quarter < q ∧ q < x.reach.2 * x.quarter

/-- A decimal rounds to a number if its value lies in the interval of the
number. -/
theorem roundsTo_iff (x : Double) (d : Decimal) : x.roundsTo d = true ↔ x.Reaches d.value := by
  obtain ⟨hden, hquotient⟩ := x.quarterOver_eq d.scale
  have hden' : (0 : ℚ) < (x.quarterOver d.scale).2 := by exact_mod_cast hden
  have hten : (0 : ℚ) < 10 ^ d.scale := zpow_pos (by norm_num) _
  have hle : ∀ a b : ℕ, a * (x.quarterOver d.scale).1 ≤ b * (x.quarterOver d.scale).2
      ↔ (a : ℚ) * x.quarter ≤ b * 10 ^ d.scale := by
    intro a b
    rw [← @Nat.cast_le ℚ]
    push_cast
    rw [← div_le_iff₀ hden', mul_div_assoc, hquotient, ← mul_div_assoc, div_le_iff₀ hten]
  have hlt : ∀ a b : ℕ, a * (x.quarterOver d.scale).1 < b * (x.quarterOver d.scale).2
      ↔ (a : ℚ) * x.quarter < b * 10 ^ d.scale := by
    intro a b
    rw [← @Nat.cast_lt ℚ]
    push_cast
    rw [← div_lt_iff₀ hden', mul_div_assoc, hquotient, ← mul_div_assoc, div_lt_iff₀ hten]
  have hge : ∀ a b : ℕ, b * (x.quarterOver d.scale).2 ≤ a * (x.quarterOver d.scale).1
      ↔ (b : ℚ) * 10 ^ d.scale ≤ a * x.quarter := fun a b => by rw [← not_lt, hlt, not_lt]
  have hgt : ∀ a b : ℕ, b * (x.quarterOver d.scale).2 < a * (x.quarterOver d.scale).1
      ↔ (b : ℚ) * 10 ^ d.scale < a * x.quarter := fun a b => by rw [← not_le, hle, not_le]
  have hunfold : x.roundsTo d = if x.mantissa % 2 = 0 then
        decide (x.reach.1 * (x.quarterOver d.scale).1 ≤ d.digits * (x.quarterOver d.scale).2)
          && decide (d.digits * (x.quarterOver d.scale).2 ≤ x.reach.2 * (x.quarterOver d.scale).1)
      else decide (x.reach.1 * (x.quarterOver d.scale).1 < d.digits * (x.quarterOver d.scale).2)
          && decide (d.digits * (x.quarterOver d.scale).2 < x.reach.2 * (x.quarterOver d.scale).1) :=
    rfl
  rw [hunfold]
  unfold Reaches Decimal.value
  split
  · rw [Bool.and_eq_true, decide_eq_true_iff, decide_eq_true_iff, hle, hge]
  · rw [Bool.and_eq_true, decide_eq_true_iff, decide_eq_true_iff, hlt, hgt]

namespace Reaches

variable {x y : Double} {q : ℚ}

/-- The interval ends above; the end is not in it if the mantissa is odd. -/
theorem le_high (h : x.Reaches q) : q ≤ x.reach.2 * x.quarter ∧
    (x.mantissa % 2 = 1 → q < x.reach.2 * x.quarter) := by
  unfold Reaches at h
  split at h
  · exact ⟨h.2, fun hodd => by omega⟩
  · exact ⟨h.2.le, fun _ => h.2⟩

/-- The interval begins below, in the same way. -/
theorem low_le (h : x.Reaches q) : x.reach.1 * x.quarter ≤ q ∧
    (x.mantissa % 2 = 1 → x.reach.1 * x.quarter < q) := by
  unfold Reaches at h
  split at h
  · exact ⟨h.1, fun hodd => by omega⟩
  · exact ⟨h.1.le, fun _ => h.1⟩

/-- Where `k` units of `x` fit into one of `y` the intervals can meet only if
`k` times the lower end of `y` is no more than the upper end of `x`. -/
theorem ends_of_both (hx : x.Reaches q) (hy : y.Reaches q) {k : ℕ}
    (hunit : k * x.quarter ≤ y.quarter) : k * y.reach.1 ≤ x.reach.2 ∧
      (x.mantissa % 2 = 1 ∨ y.mantissa % 2 = 1 → k * y.reach.1 < x.reach.2) := by
  have hpos := x.quarter_pos
  have hscaled : (k * y.reach.1 : ℚ) * x.quarter ≤ y.reach.1 * y.quarter := by
    calc (k * y.reach.1 : ℚ) * x.quarter = y.reach.1 * (k * x.quarter) := by ring
      _ ≤ y.reach.1 * y.quarter := mul_le_mul_of_nonneg_left hunit (Nat.cast_nonneg _)
  constructor
  · have hle := (hscaled.trans hy.low_le.1).trans hx.le_high.1
    exact_mod_cast le_of_mul_le_mul_right hle hpos
  · rintro (hodd | hodd)
    · have hlt := (hscaled.trans hy.low_le.1).trans_lt (hx.le_high.2 hodd)
      exact_mod_cast lt_of_mul_lt_mul_right hlt hpos.le
    · have hlt := (hscaled.trans_lt (hy.low_le.2 hodd)).trans_le hx.le_high.1
      exact_mod_cast lt_of_mul_lt_mul_right hlt hpos.le

end Reaches

/-- Where the interval begins: a quarter away below a power of two, else two
quarters. -/
theorem reach_low (x : Double) :
    (x.mantissa = Nat.pow 2 52 ∧ x.exponent ≠ -1074 ∧ x.reach.1 = 4 * x.mantissa - 1)
      ∨ (¬ (x.mantissa = Nat.pow 2 52 ∧ x.exponent ≠ -1074)
        ∧ x.reach.1 = 4 * x.mantissa - 2) := by
  unfold reach
  dsimp only
  split
  · next h => exact .inl ⟨h.1, h.2, rfl⟩
  · next h => exact .inr ⟨h, rfl⟩

/-- No number rounds both to `x` and to a greater number. -/
theorem not_reaches_both {x y : Double} {q : ℚ}
    (hlt : x.exponent < y.exponent ∨ (x.exponent = y.exponent ∧ x.mantissa < y.mantissa))
    (hx : x.Reaches q) : ¬ y.Reaches q := by
  intro hy
  have h52 : Nat.pow 2 52 = 4503599627370496 := by norm_num
  have h53 : Nat.pow 2 53 = 9007199254740992 := by norm_num
  obtain ⟨hxmost, hxleast, -, -⟩ := x.canonical
  obtain ⟨-, -, -, hynormal⟩ := y.canonical
  have hlow := y.reach_low
  have hhigh : x.reach.2 = 4 * x.mantissa + 2 := rfl
  rw [h52] at hynormal hlow
  rw [h53] at hxmost
  rcases hlt with hexponent | ⟨hexponent, hmantissa⟩
  · have hunit : (2 : ℕ) * x.quarter ≤ y.quarter := by
      have hone : (2 : ℚ) * 2 ^ (x.exponent - 2) = 2 ^ (x.exponent - 2 + 1) := by
        rw [zpow_add_one₀ two_ne_zero, mul_comm]
      rw [Nat.cast_two]
      unfold quarter
      rw [hone]
      exact zpow_le_zpow_right₀ one_le_two (by omega)
    obtain ⟨hends, hstrict⟩ := hx.ends_of_both hy hunit
    rw [hhigh] at hends hstrict
    omega
  · have hunit : (1 : ℕ) * x.quarter ≤ y.quarter := by
      rw [Nat.cast_one, one_mul]
      unfold quarter
      rw [hexponent]
    obtain ⟨hends, hstrict⟩ := hx.ends_of_both hy hunit
    rw [hhigh] at hends hstrict
    omega

/-- A number rounds to one magnitude. -/
theorem reaches_unique {x y : Double} {q : ℚ} (hx : x.Reaches q) (hy : y.Reaches q) :
    x.mantissa = y.mantissa ∧ x.exponent = y.exponent := by
  rcases lt_trichotomy x.exponent y.exponent with hlt | heq | hgt
  · exact absurd hy (not_reaches_both (.inl hlt) hx)
  · rcases lt_trichotomy x.mantissa y.mantissa with hlt | heq' | hgt
    · exact absurd hy (not_reaches_both (.inr ⟨heq, hlt⟩) hx)
    · exact ⟨heq', heq⟩
    · exact absurd hx (not_reaches_both (.inr ⟨heq.symm, hgt⟩) hy)
  · exact absurd hx (not_reaches_both (.inl hgt) hy)

-- ============================================================ shortest

/-- What is found on a grid rounds to the number. -/
theorem onGrid?_roundsTo {x : Double} {scale : Int} {d : Decimal}
    (h : x.onGrid? scale = some d) : x.roundsTo d = true := by
  have htested : ∀ first second : Nat,
      (if x.roundsTo ⟨first, scale⟩ then some (⟨first, scale⟩ : Decimal)
        else if x.roundsTo ⟨second, scale⟩ then some ⟨second, scale⟩ else none) = some d →
      x.roundsTo d = true := by
    intro first second htest
    split at htest
    · next hfirst =>
        cases htest
        exact hfirst
    · split at htest
      · next hsecond =>
          cases htest
          exact hsecond
      · cases htest
  exact htested _ _ h

/-- What is found in a search over grids rounds to the number. -/
theorem searchGrids_roundsTo {x : Double} {d : Decimal} {steps : Nat} {scale : Int}
    (h : x.searchGrids steps scale = some d) : x.roundsTo d = true := by
  induction steps generalizing scale with
  | zero => cases h
  | succ steps ih =>
      rw [searchGrids] at h
      cases hgrid : x.onGrid? scale with
      | none =>
          rw [hgrid] at h
          exact ih h
      | some d' =>
          rw [hgrid] at h
          cases h
          exact onGrid?_roundsTo hgrid

/-- The exact value is the mantissa in units of the last place. -/
theorem value_exactDecimal (x : Double) :
    x.exactDecimal.value = (4 * x.mantissa : ℕ) * x.quarter := by
  have hunit : (4 : ℚ) * x.quarter = 2 ^ x.exponent := by
    unfold quarter
    rw [zpow_sub₀ two_ne_zero]
    norm_num
    ring
  have hscaled : ((Nat.pow 2 x.exponent.toNat * Nat.pow 5 (-x.exponent).toNat : ℕ) : ℚ)
      * 10 ^ min x.exponent 0 = 2 ^ x.exponent := by
    rcases le_total 0 x.exponent with h | h
    · have hneg : (-x.exponent).toNat = 0 := by omega
      rw [hneg, min_eq_right h, zpow_zero, mul_one]
      push_cast [Nat.pow_eq]
      rw [mul_one, ← zpow_natCast, Int.toNat_of_nonneg h]
    · have hpos : x.exponent.toNat = 0 := by omega
      have hfive : (5 : ℚ) ^ (-x.exponent).toNat = 5 ^ (-x.exponent) := by
        rw [← zpow_natCast, Int.toNat_of_nonneg (by omega)]
      have hten : (10 : ℚ) ^ x.exponent = 2 ^ x.exponent * 5 ^ x.exponent := by
        rw [← mul_zpow]
        norm_num
      rw [hpos, min_eq_left h]
      push_cast [Nat.pow_eq]
      rw [one_mul, hfive, hten, mul_left_comm, ← zpow_add₀ (by norm_num), neg_add_cancel,
        zpow_zero, mul_one]
  calc x.exactDecimal.value
      = x.mantissa * (((Nat.pow 2 x.exponent.toNat * Nat.pow 5 (-x.exponent).toNat : ℕ) : ℚ)
          * 10 ^ min x.exponent 0) := by
        unfold exactDecimal Decimal.value
        push_cast
        ring
    _ = x.mantissa * (4 * x.quarter) := by rw [hscaled, hunit]
    _ = (4 * x.mantissa : ℕ) * x.quarter := by
        push_cast
        ring

/-- The exact value rounds to `x`. -/
theorem reaches_exactDecimal (x : Double) : x.Reaches x.exactDecimal.value := by
  have hvalue := x.value_exactDecimal
  have hpos := x.quarter_pos
  have hlow : x.reach.1 ≤ 4 * x.mantissa := Nat.sub_le _ _
  have hhigh : 4 * x.mantissa < x.reach.2 := by
    show 4 * x.mantissa < 4 * x.mantissa + 2
    omega
  rw [hvalue]
  unfold Reaches
  split
  · exact ⟨mul_le_mul_of_nonneg_right (by exact_mod_cast hlow) hpos.le,
      mul_le_mul_of_nonneg_right (by exact_mod_cast hhigh.le) hpos.le⟩
  · next hodd =>
      have hbelow : x.reach.1 < 4 * x.mantissa := by
        have hlow' := x.reach_low
        omega
      exact ⟨mul_lt_mul_of_pos_right (by exact_mod_cast hbelow) hpos,
        mul_lt_mul_of_pos_right (by exact_mod_cast hhigh) hpos⟩

/-- The decimal that is written rounds to `x`. -/
theorem reaches_shortest (x : Double) : x.Reaches x.shortest.value := by
  unfold shortest
  cases hfound : x.searchGrids 25 x.coarsest with
  | none => exact x.reaches_exactDecimal
  | some d => exact (x.roundsTo_iff d).1 (searchGrids_roundsTo hfound)

end Depot.Double
