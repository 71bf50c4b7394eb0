/-
Equality and order of values across their kinds. Numbers compare by
their exact value, whole or not, and a truth value compares as 0 or 1;
texts compare by code points and lists item by item. Mappings are equal
when they have the same entries in any order. No other two kinds are
equal, and no other two can be ordered.
-/
import Depot.Fault

namespace Depot.Value

/-- The exact value of a number or truth value, as a quotient with a
positive denominator. -/
def ratio? : Value → Option (Int × Nat)
  | .bool b => some (if b then 1 else 0, 1)
  | .int n => some (n, 1)
  | .float x => some x.ratio
  | _ => none

-- ========================================================== equality

mutual
/-- Equality across kinds. -/
def same : Value → Value → Bool
  | .null, w => w.isNull
  | .str a, .str b => a = b
  | .list xs, .list ys => sameItems xs ys
  | .object fs, .object gs => fs.length = gs.length && sameFields fs gs
  | .bool b, w => match w.ratio? with
      | some r => Double.ratioSame (if b then 1 else 0, 1) r
      | none => false
  | .int n, w => match w.ratio? with
      | some r => Double.ratioSame (n, 1) r
      | none => false
  | .float x, w => match w.ratio? with
      | some r => Double.ratioSame x.ratio r
      | none => false
  | _, _ => false
/-- Equality of lists, item by item. -/
def sameItems : List Value → List Value → Bool
  | [], [] => true
  | x :: xs, y :: ys => same x y && sameItems xs ys
  | _, _ => false
/-- Each entry of the first mapping has an equal one in the second. -/
def sameFields : List (String × Value) → List (String × Value) → Bool
  | [], _ => true
  | (k, v) :: fs, gs => (match Fields.get? gs k with
      | some w => same v w
      | none => false) && sameFields fs gs
end

/-- Whether a list has an item equal to `v`. -/
def isAmong (v : Value) (xs : List Value) : Bool := xs.any (·.same v)

/-- Whether the value can name an entry of a table: lists and mappings
cannot. -/
def canName : Value → Bool
  | .list _ | .object _ => false
  | _ => true

/-- The fault of naming a table entry by a value that cannot name one. -/
def cannotName (v : Value) : Fault := .badType s!"unhashable type: '{v.typeName}'"

/-- The value, if it can name an entry of a table. -/
def asName (v : Value) : Except Fault Value := if v.canName then .ok v else .error v.cannotName

-- ============================================================= order

/-- The four ways of asking for an order. -/
inductive Comparison where
  | below
  | above
  | atMost
  | atLeast

namespace Comparison

/-- The sign of a comparison in messages. -/
def sign : Comparison → String
  | .below => "<"
  | .above => ">"
  | .atMost => "<="
  | .atLeast => ">="

/-- Whether a comparison holds of two things in the given order. -/
def holds : Comparison → Ordering → Bool
  | .below, o => o = .lt
  | .above, o => o = .gt
  | .atMost, o => o ≠ .gt
  | .atLeast, o => o ≠ .lt

end Comparison

/-- The order of two quotients. -/
def ratioOrder (x y : Int × Nat) : Ordering :=
  if Double.ratioBelow x y then .lt else if Double.ratioSame x y then .eq else .gt

/-- The order of two texts by code points. -/
def textOrder (a b : String) : Ordering := if a < b then .lt else if a = b then .eq else .gt

/-- The fault of ordering two values that have no order. -/
def noOrder (c : Comparison) (v w : Value) : Fault :=
  let kinds := s!"'{v.typeName}' and '{w.typeName}'"
  .badType s!"'{c.sign}' not supported between instances of {kinds}"

mutual
/-- Whether a comparison holds of two values. -/
def compare (c : Comparison) : Value → Value → Except Fault Bool
  | .str a, .str b => .ok (c.holds (textOrder a b))
  | .list xs, .list ys => compareItems c xs ys
  | v, w =>
      match v.ratio?, w.ratio? with
      | some x, some y => .ok (c.holds (ratioOrder x y))
      | _, _ => .error (noOrder c v w)
/-- Lists compare at their first unequal items, and by length if there
are none. -/
def compareItems (c : Comparison) : List Value → List Value → Except Fault Bool
  | [], [] => .ok (c.holds .eq)
  | [], _ :: _ => .ok (c.holds .lt)
  | _ :: _, [] => .ok (c.holds .gt)
  | x :: xs, y :: ys => if same x y then compareItems c xs ys else compare c x y
end

/-- Puts a value in front of the first that is not below it. -/
def insertInOrder (v : Value) : List Value → Except Fault (List Value)
  | [] => .ok [v]
  | w :: rest => do
      if ← compare .below w v then return w :: (← insertInOrder v rest) else return v :: w :: rest

/-- The values in rising order; equal ones keep theirs. -/
def inOrder : List Value → Except Fault (List Value)
  | [] => .ok []
  | v :: vs => do insertInOrder v (← inOrder vs)

/-- The first greatest value of a list. -/
def greatest : List Value → Except Fault Value
  | [] => .error (.badValue "max() arg is an empty sequence")
  | v :: vs => vs.foldlM (fun best w => do
      return if ← compare .above w best then w else best) v

end Depot.Value
