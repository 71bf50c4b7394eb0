/-
Lists of requirements: grouped by the resource that they share, grouped
by type, ordered by priority. Groups come in the order in which their
first members stand, members keep the order of the list, and so do
members of one priority.

The functions work on any items that carry a requirement; `of` takes it
from an item.
-/
import Depot.Requirement.Key

namespace Depot.Requirement

variable {α : Type} (of : α → Requirement)

-- ============================================================ groups

/-- The groups with one more item: in the group of its key, or in a new
one at the end. -/
def addTo {κ : Type} (same : κ → κ → Bool) (key : κ) (item : α) :
    List (κ × List α) → List (κ × List α)
  | [] => [(key, [item])]
  | (k, items) :: groups =>
      if same k key then (k, items ++ [item]) :: groups
      else (k, items) :: addTo same key item groups

/-- The items by the resource that they name. -/
def groupByResourceKey (items : List α) : List (String × List α) :=
  items.foldl (fun groups item => addTo (· == ·) (of item).resourceKey item groups) []

/-- The items by the type of resource. -/
def groupByType (items : List α) : Except Fault (List (Value × List α)) :=
  items.foldlM (fun groups item =>
    let type := (of item).type
    if type.canName then .ok (addTo Value.same type item groups)
    else .error type.cannotName) []

/-- The types in the order of their first use. -/
def distinctTypes (items : List α) : Except Fault (List Value) := do
  return (← groupByType of items).map Prod.fst

/-- The items of one type. -/
def ofType (type : Value) (items : List α) : List α :=
  items.filter fun item => (of item).type.same type

-- =========================================================== priority

/-- Puts an item in front of the first that does not outrank it. -/
def insertByPriority (item : α) : List α → Except Fault (List α)
  | [] => .ok [item]
  | other :: rest => do
      if ← Value.compare .below (of item).effectivePriority (of other).effectivePriority then
        return other :: (← insertByPriority item rest)
      else return item :: other :: rest

/-- The items by falling priority; equal ones keep their order. -/
def sortByPriority : List α → Except Fault (List α)
  | [] => .ok []
  | item :: rest => do insertByPriority of item (← sortByPriority rest)

/-- The first item of the highest priority. -/
def highestPriority (items : List α) : Except Fault α := do
  match ← sortByPriority of items with
  | item :: _ => return item
  | [] => .error (.badValue "Cannot get highest priority from empty requirements")

end Depot.Requirement
