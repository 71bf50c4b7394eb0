/-
Tables: entries under different keys, in the order in which the keys
were first set. Setting a key again keeps its place.
-/

namespace Depot

/-- Entries by key. -/
abbrev Table (α : Type) := List (String × α)

namespace Table

variable {α : Type}

/-- Sets a key: in its place if the table has it, at the end if not. -/
def put (key : String) (new : α) : Table α → Table α
  | [] => [(key, new)]
  | (k, old) :: rest => if k = key then (k, new) :: rest else (k, old) :: put key new rest

/-- The table that results from setting entries one after the other. -/
def ofEntries (entries : List (String × α)) : Table α :=
  entries.foldl (fun t (k, v) => put k v t) []

/-- The table without a key. -/
def erase (key : String) (t : Table α) : Table α := t.filter fun e => e.1 ≠ key

/-- Whether the table has a key. -/
def has (t : Table α) (key : String) : Bool := (t.lookup key).isSome

/-- The keys in order. -/
def keys (t : Table α) : List String := t.map Prod.fst

end Table

end Depot
