/-
Values as sequences: walking them, taking their size, looking for an
item, joining them. A text yields its characters and a mapping its keys;
what is no sequence is refused with a fault that names its type.
-/
import Depot.Text.Basic
import Depot.Value.Order

namespace Depot.Value

/-- The items that a walk over the value meets. -/
def iterate : Value → Except Fault (List Value)
  | .list xs => .ok xs
  | .str s => .ok (s.toList.map fun c => .str (String.ofList [c]))
  | .object fs => .ok (fs.map fun (k, _) => .str k)
  | v => .error (.badType s!"'{v.typeName}' object is not iterable")

/-- The items of a value by their positions. A mapping has none, for its
keys are texts. -/
def byPosition : Value → Except Fault (List Value)
  | .list xs => .ok xs
  | .str s => (Value.str s).iterate
  | .object _ => .error (.noEntry "0")
  | v => .error (.badType s!"'{v.typeName}' object is not subscriptable")

/-- The items that a walk over the value under a key meets; none if the key
is missing. -/
def walkAt (v : Value) (key : String) : Except Fault (List Value) :=
  (v.fieldOr key (.list [])).iterate

/-- The two items of a pair. -/
def asPair (v : Value) : Except Fault (Value × Value) :=
  match v.iterate with
  | .ok [first, second] => .ok (first, second)
  | .ok xs =>
      if 2 < xs.length then .error (.badValue "too many values to unpack (expected 2)")
      else .error (.badValue s!"not enough values to unpack (expected 2, got {xs.length})")
  | .error _ => .error (.badType s!"cannot unpack non-iterable {v.typeName} object")

/-- The pairs in the list under a key; none if the key is missing. -/
def pairsAt (v : Value) (key : String) : Except Fault (List (Value × Value)) := do
  (← v.walkAt key).mapM asPair

/-- Whether an item is in the value. A text has the texts in it that are
parts of it. -/
def contains (v item : Value) : Except Fault Bool :=
  match v, item with
  | .list xs, item => .ok (item.isAmong xs)
  | .str s, .str part => .ok (Text.occursIn part.toList s.toList)
  | .str _, item =>
      .error (.badType s!"'in <string>' requires string as left operand, not {item.typeName}")
  | .object fs, item => do
      match ← item.asName with
      | .str key => return Fields.has fs key
      | _ => return false
  | v, _ => .error (.badType s!"argument of type '{v.typeName}' is not iterable")

/-- The number of items; texts count characters. -/
def length : Value → Except Fault Nat
  | .list xs => .ok xs.length
  | .str s => .ok s.length
  | .object fs => .ok fs.length
  | v => .error (.badType s!"object of type '{v.typeName}' has no len()")

/-- The text of a value that a pattern reads. -/
def patternText : Value → Except Fault (List Char)
  | .str s => .ok s.toList
  | v => .error (.badType s!"expected string or bytes-like object, got '{v.typeName}'")

/-- The fault of asking a value for a part that it does not have. -/
def lacks (v : Value) (part : String) : Fault :=
  .noAttribute s!"'{v.typeName}' object has no attribute '{part}'"

/-- The entries of a value that is used as a mapping. -/
def entriesOf (part : String) : Value → Except Fault Fields
  | .object fs => .ok fs
  | v => .error (v.lacks part)

/-- The texts of a sequence of strings; a value that is not a string is
refused by its position. -/
def textsFrom (at0 : Nat) : List Value → Except Fault (List String)
  | [] => .ok []
  | .str s :: vs => do return s :: (← textsFrom (at0 + 1) vs)
  | v :: _ =>
      .error (.badType s!"sequence item {at0}: expected str instance, {v.typeName} found")

/-- Strings joined by a separator. -/
def joinTexts (separator : String) (vs : List Value) : Except Fault String := do
  return separator.intercalate (← textsFrom 0 vs)

/-- The item at a position of a list of sources or priorities. -/
def itemAt (xs : List Value) (i : Nat) : Except Fault Value :=
  match xs[i]? with
  | some v => .ok v
  | none => .error (.noPosition "tuple index out of range")

end Depot.Value
