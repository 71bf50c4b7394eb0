/-
Binary64 numbers together with the two infinities and with what is no
number. A sum or a product that is too large is infinite; where the two
infinities meet in a sum, no number is left.
-/
import Depot.Number.Double

namespace Depot

/-- A number, an infinity, or no number. -/
inductive Extended where
  | finite (x : Double)
  | infinite (negative : Bool)
  | noNumber
  deriving DecidableEq

namespace Extended

/-- Zero. -/
def zero : Extended := .finite (Double.zero false)

/-- A number that was rounded, infinite if nothing came of it. -/
def ofRounded (negative : Bool) (x : Option Double) : Extended :=
  x.elim (.infinite negative) .finite

/-- The same with the other sign. -/
def neg : Extended → Extended
  | .finite x => .finite { x with negative := !x.negative }
  | .infinite negative => .infinite (!negative)
  | .noNumber => .noNumber

/-- The rounded value of a quotient with a positive denominator. -/
def ofRatio (x : Int × Nat) : Extended :=
  ofRounded (x.1 < 0) (Double.ofRatio? (x.1 < 0) x.1.natAbs x.2)

/-- The rounded sum. -/
def add : Extended → Extended → Extended
  | .finite x, .finite y =>
      let (a, b) := (x.ratio, y.ratio)
      ofRatio (a.1 * b.2 + b.1 * a.2, a.2 * b.2)
  | .infinite m, .infinite n => if m = n then .infinite m else .noNumber
  | .infinite m, .finite _ | .finite _, .infinite m => .infinite m
  | .noNumber, _ | _, .noNumber => .noNumber

/-- The rounded product with a positive number. -/
def scale (factor : Double) : Extended → Extended
  | .finite x =>
      let (a, b) := (x.ratio, factor.ratio)
      ofRatio (a.1 * b.1, a.2 * b.2)
  | x => x

end Extended

end Depot
