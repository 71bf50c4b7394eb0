/-
Finite binary64 numbers as exact dyadic fractions. A number is a sign, a
mantissa of at most 53 bits and an exponent of two, in the one canonical
form the format allows; so two numbers are the same exactly when their
fields are, the two zeros apart, and every comparison is a comparison of
integers.

The infinities and what is no number are left out, so every number here is
like itself and can be compared. No JSON text writes one of them; where a
file or a sum may give one it is an `Extended` or foreign data, and no value.
-/

namespace Depot

/-- A finite binary64 number: `± mantissa · 2 ^ exponent`. -/
structure Double where
  negative : Bool
  mantissa : Nat
  exponent : Int
  canonical : mantissa < Nat.pow 2 53 ∧ -1074 ≤ exponent ∧ exponent ≤ 971 ∧
    (Nat.pow 2 52 ≤ mantissa ∨ exponent = -1074)
  deriving DecidableEq

namespace Double

/-- The zero of the given sign. -/
def zero (negative : Bool) : Double := ⟨negative, 0, -1074, by decide⟩

instance : Inhabited Double := ⟨zero false⟩

-- ======================================================= exact value

/-- The magnitude as a quotient of natural numbers. -/
def magnitude (x : Double) : Nat × Nat :=
  (x.mantissa * Nat.pow 2 x.exponent.toNat, Nat.pow 2 (-x.exponent).toNat)

/-- The exact value as a quotient with a positive denominator. -/
def ratio (x : Double) : Int × Nat :=
  let (num, den) := x.magnitude
  (if x.negative then -(num : Int) else num, den)

/-- The integer that the number equals, if it equals one. -/
def integer? (x : Double) : Option Int :=
  let (num, den) := x.ratio
  if num % den = 0 then some (num / den) else none

/-- Whether the number is one of the two zeros. -/
def isZero (x : Double) : Bool := x.mantissa = 0

-- ========================================================== rounding

/-- The quotient rounded to a whole number, a half to the even one. -/
def roundQuotient (num den : Nat) : Nat :=
  let q := num / den
  let r := num % den
  if 2 * r < den ∨ (2 * r = den ∧ q % 2 = 0) then q else q + 1

/-- The multiple of `2 ^ e` nearest to `num / den`, counted in those
steps. -/
def roundAt (num den : Nat) (e : Int) : Nat :=
  roundQuotient (num * Nat.pow 2 (-e).toNat) (den * Nat.pow 2 e.toNat)

/-- The number with these fields, if they are canonical. -/
def ofFields? (negative : Bool) (mantissa : Nat) (exponent : Int) : Option Double :=
  if h : mantissa < Nat.pow 2 53 ∧ -1074 ≤ exponent ∧ exponent ≤ 971 ∧
      (Nat.pow 2 52 ≤ mantissa ∨ exponent = -1074) then
    some ⟨negative, mantissa, exponent, h⟩
  else none

/-- The number nearest to `± num / den`, a tie to the even mantissa;
nothing when it is too large. The exponent is the least one whose
rounded mantissa still has 53 bits; the estimate by logarithms is at
most two steps below it. -/
def ofRatio? (negative : Bool) (num den : Nat) : Option Double :=
  if num = 0 then some (zero negative)
  else
    let start : Int := max (-1074) ((num.log2 : Int) - den.log2 - 53)
    match [start, start + 1, start + 2].find? (roundAt num den · < Nat.pow 2 53) with
    | some e => ofFields? negative (roundAt num den e) e
    | none => none

/-- The number nearest to `± digits · 10 ^ scale`. A scale far outside
the format's range is answered without computing the power. -/
def ofDecimal? (negative : Bool) (digits : Nat) (scale : Int) : Option Double :=
  if digits = 0 ∨ scale + digits.log2 < -400 then some (zero negative)
  else if 400 < scale then none
  else ofRatio? negative (digits * Nat.pow 10 scale.toNat) (Nat.pow 10 (-scale).toNat)

-- ======================================================== comparison

/-- Exact order of two quotients with positive denominators. -/
def ratioBelow (x y : Int × Nat) : Bool := x.1 * y.2 < y.1 * x.2

/-- Exact equality of two quotients with positive denominators. -/
def ratioSame (x y : Int × Nat) : Bool := x.1 * y.2 = y.1 * x.2

end Double

end Depot
