/-
Tables whose keys are values, in the order in which the keys were first
set. Keys that are equal across their kinds are one key: it keeps its
first spelling and its first place, and has what was set last. Lists and
mappings cannot be keys.
-/
import Depot.Value.Sequence

namespace Depot

/-- Entries by key. -/
abbrev Keyed (α : Type) := List (Value × α)

namespace Keyed

variable {α : Type}

/-- What stands under a key. -/
def get? (t : Keyed α) (key : Value) : Option α := (t.find? fun e => e.1.same key).map Prod.snd

/-- Whether the table has a key. -/
def has (t : Keyed α) (key : Value) : Bool := (t.get? key).isSome

/-- What stands under a key that may be one that no table can have. -/
def find? (t : Keyed α) (key : Value) : Except Fault (Option α) := do
  return t.get? (← key.asName)

/-- Whether the table has a key that may be one that no table can
have. -/
def contains (t : Keyed α) (key : Value) : Except Fault Bool := do return t.has (← key.asName)

/-- Sets a key: in its place if the table has it, at the end if not. -/
def put (t : Keyed α) (key : Value) (new : α) : Keyed α :=
  match t with
  | [] => [(key, new)]
  | (k, old) :: rest => if k.same key then (k, new) :: rest else (k, old) :: put rest key new

/-- Sets several keys in order. -/
def putAll (t new : Keyed α) : Keyed α := new.foldl (fun acc (k, a) => acc.put k a) t

/-- The table without a key. -/
def erase (t : Keyed α) (key : Value) : Keyed α := t.filter fun e => !e.1.same key

/-- The keys in order. -/
def keys (t : Keyed α) : List Value := t.map Prod.fst

/-- The table as a list of pairs. -/
def pairs (f : α → Value) (t : Keyed α) : Value := .list (t.map fun (k, a) => .list [k, f a])

end Keyed

end Depot
