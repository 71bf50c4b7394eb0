/-
Handlers of a merge by name: the strategies, one that takes the last
value, and some that fail.
-/
import Depot.Merge.Offered
import Depot.Merge.Reader

namespace Depot.Stub

open Merge

/-- The handler that takes the last value. -/
def last : Handler := fun values ctx =>
  match values.getLast?, ctx.sources.getLast? with
  | some v, some source => .ok ⟨v, .custom, [source], ["took last"]⟩
  | _, _ => .error (.noPosition "list index out of range")

/-- A handler that fails with a fault of some kind. -/
def failing (f : String → Fault) : Handler := fun _ ctx =>
  .error (f s!"handler failed at {ctx.path.label}")

/-- The handler of a name; that of mappings merges the keys for which there
are handlers of their own by these. -/
def handlerOf (name : Value) (handlers : List (String × Handler) := []) : Except Fault Handler := do
  match ← name.asName with
  | .str "object" => return object handlers
  | .str "last" => return last
  | .str "fail_value" => return failing .badValue
  | .str "fail_type" => return failing .badType
  | .str "fail_runtime" => return failing .gaveUp
  | name => match Strategy.ofValue name with
      | .ok .custom | .error _ => throw (.noEntry name.label)
      | .ok strategy => return strategy.handler

/-- The outcome of the handler of a name for values that come as one value.
The failing ones do not look at it. -/
def applied (name values : Value) (ctx : Context) (handlers : List (String × Handler) := []) :
    Except Fault Outcome := do
  let handler ← handlerOf name handlers
  match name, Strategy.ofValue name with
  | .str "last", _ => handler (← values.byPosition) ctx
  | .str "object", _ => Strategy.custom.settle handler values ctx
  | _, .ok strategy => strategy.settle handler values ctx
  | _, .error _ => handler [] ctx

/-- The merger that a mapping describes. -/
def mergerOf (v : Value) : Except Fault Merger := do
  Merger.ofValue handlerOf (.object (← (if v.isNull then .object [] else v).entriesOf "get"))

end Depot.Stub
