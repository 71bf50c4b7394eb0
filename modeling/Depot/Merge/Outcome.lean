/-
What a merge of one configuration path starts from and what comes out.
The values stand in the order of their configurations; `sources` and
`priorities` say, position by position, where they came from and how
much they count. A handler turns values and their context into an
outcome and never changes what it was given.
-/
import Depot.Value.Sequence
import Depot.Value.Writing

namespace Depot.Merge

/-- The ways of reconciling values. -/
inductive Strategy where
  | union
  | intersection
  | maximum
  | minimum
  | priority
  | custom
  deriving DecidableEq

/-- The name of a strategy. -/
def Strategy.name : Strategy → String
  | .union => "union"
  | .intersection => "intersection"
  | .maximum => "maximum"
  | .minimum => "minimum"
  | .priority => "priority"
  | .custom => "custom"

/-- The strategy that a value names. -/
def Strategy.ofValue : Value → Except Fault Strategy
  | .str "union" => .ok .union
  | .str "intersection" => .ok .intersection
  | .str "maximum" => .ok .maximum
  | .str "minimum" => .ok .minimum
  | .str "priority" => .ok .priority
  | .str "custom" => .ok .custom
  | v => do throw (.badValue s!"{← v.quoted} is not a valid MergeStrategy")

/-- Where the values at a path came from. -/
structure Context where
  path : Value
  sources : List Value
  priorities : List Value
  deriving DecidableEq

namespace Context

/-- The source at a position. -/
def sourceAt (ctx : Context) (i : Nat) : Except Fault Value := Value.itemAt ctx.sources i

/-- The priority at a position. -/
def priorityAt (ctx : Context) (i : Nat) : Except Fault Value := Value.itemAt ctx.priorities i

/-- The context of a path below, for the values at some positions. -/
def narrow (ctx : Context) (path : Value) (positions : List Nat) : Except Fault Context := do
  return ⟨path, ← positions.mapM ctx.sourceAt, ← positions.mapM ctx.priorityAt⟩

/-- The path of a key below this path. -/
def below (ctx : Context) (key : String) : Value := .str s!"{ctx.path.label}.{key}"

end Context

/-- How a path was reconciled. -/
structure Outcome where
  value : Value
  strategy : Strategy
  sources : List Value := []
  warnings : List String := []
  deriving DecidableEq

/-- The outcome as a mapping. -/
def Outcome.toFields (o : Outcome) : Fields :=
  [("value", o.value), ("strategy", .str o.strategy.name), ("sources", .list o.sources),
    ("warnings", .texts o.warnings)]

/-- A way to reconcile values. -/
abbrev Handler := List Value → Context → Except Fault Outcome

end Depot.Merge
