/-
The decimal text of a binary64 number: the fewest digits that read back
as the same number, and of those the nearest.

The numbers that round to `x` form an interval around it. `shortest`
walks the decimal grids from coarse to fine and stops at the first that
has a point in the interval; on each grid only the two neighbours of
`x` need a look, since any other point is farther away on its side.
`Notation` says how the digits are laid out.
-/
import Depot.Number.Double

namespace Depot.Double

/-- A decimal: `digits · 10 ^ scale`. -/
structure Decimal where
  digits : Nat
  scale : Int
  deriving DecidableEq

/-- The interval of numbers that round to `x`, in quarters of a unit of
its last place: the ends lie half a unit away, or a quarter below a
power of two, where the spacing changes. They belong to the interval
when the mantissa is even. -/
def reach (x : Double) : Nat × Nat :=
  let below := if x.mantissa = Nat.pow 2 52 ∧ x.exponent ≠ -1074 then 1 else 2
  (4 * x.mantissa - below, 4 * x.mantissa + 2)

/-- A quarter of a unit in the last place of `x`, over the grid step
`10 ^ scale`, as a quotient. -/
def quarterOver (x : Double) (scale : Int) : Nat × Nat :=
  (Nat.pow 2 x.exponent.toNat * Nat.pow 10 (-scale).toNat,
    4 * Nat.pow 2 (-x.exponent).toNat * Nat.pow 10 scale.toNat)

/-- Whether `digits · 10 ^ scale` rounds to the magnitude of `x`. -/
def roundsTo (x : Double) (d : Decimal) : Bool :=
  let (num, den) := x.quarterOver d.scale
  let (low, high) := x.reach
  if x.mantissa % 2 = 0 then low * num ≤ d.digits * den && d.digits * den ≤ high * num
  else low * num < d.digits * den && d.digits * den < high * num

/-- The point of the grid `10 ^ scale` that rounds to `x`: of the two
neighbours of `x` the nearer one, the even one on a tie. -/
def onGrid? (x : Double) (scale : Int) : Option Decimal :=
  let (num, den) := x.quarterOver scale
  let at4 := 4 * x.mantissa * num
  let lower := at4 / den
  let fromLower := at4 - lower * den
  let toUpper := (lower + 1) * den - at4
  let (first, second) :=
    if fromLower < toUpper ∨ (fromLower = toUpper ∧ lower % 2 = 0) then (lower, lower + 1)
    else (lower + 1, lower)
  if x.roundsTo ⟨first, scale⟩ then some ⟨first, scale⟩
  else if x.roundsTo ⟨second, scale⟩ then some ⟨second, scale⟩
  else none

/-- The first grid point met when the grids get finer step by step. -/
def searchGrids (x : Double) : Nat → Int → Option Decimal
  | 0, _ => none
  | steps + 1, scale =>
      match x.onGrid? scale with
      | some d => some d
      | none => searchGrids x steps (scale - 1)

/-- A grid so coarse that it has no point below `x`, from the binary
logarithm. -/
def coarsest (x : Double) : Int :=
  ((x.exponent + x.mantissa.log2 + 1) * 30103).fdiv 100000 + 1

/-- The exact decimal value of the magnitude. -/
def exactDecimal (x : Double) : Decimal :=
  ⟨x.mantissa * Nat.pow 2 x.exponent.toNat * Nat.pow 5 (-x.exponent).toNat, min x.exponent 0⟩

/-- The shortest decimal that reads back as the magnitude of `x`. A
grid with 17 digits always has one; 25 grids reach below that. -/
def shortest (x : Double) : Decimal := (x.searchGrids 25 x.coarsest).getD x.exactDecimal

-- ========================================================== notation

/-- How the digits of a number are laid out. -/
structure Notation where
  /-- The least power of ten of the leading digit that is written
  positionally. -/
  positionalFrom : Int
  /-- The first power of ten that is written with an exponent. -/
  positionalBelow : Int
  /-- The least number of digits of a written exponent. -/
  exponentDigits : Nat

/-- Positional from a ten-thousandth up to ten thousand millions of
millions, else scientific with at least two exponent digits. -/
def plainNotation : Notation := ⟨-4, 16, 2⟩

/-- Some zeros in a row. -/
def zeros (n : Nat) : List Char := List.replicate n '0'

/-- The digits of a natural number in base ten. -/
def decimalDigits (n : Nat) : List Char := Nat.toDigits 10 n

/-- The text of a decimal. A positional text always has a point. -/
def Notation.write (style : Notation) (d : Decimal) : List Char :=
  let ds := decimalDigits d.digits
  let lead : Int := (ds.length : Int) - 1 + d.scale
  if style.positionalFrom ≤ lead ∧ lead < style.positionalBelow then
    if 0 ≤ d.scale then ds ++ zeros d.scale.toNat ++ ['.', '0']
    else if 0 ≤ lead then ds.take (lead.toNat + 1) ++ '.' :: ds.drop (lead.toNat + 1)
    else '0' :: '.' :: zeros (-lead - 1).toNat ++ ds
  else
    let power := decimalDigits lead.natAbs
    ds.take 1 ++ (if ds.length = 1 then [] else '.' :: ds.drop 1)
      ++ ['e', if lead < 0 then '-' else '+']
      ++ zeros (style.exponentDigits - power.length) ++ power

/-- The text of a number. The sign of zero is kept. -/
def text (x : Double) : String :=
  let body := if x.isZero then ['0', '.', '0'] else plainNotation.write x.shortest
  String.ofList (if x.negative then '-' :: body else body)

end Depot.Double
