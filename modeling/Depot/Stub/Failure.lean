/-
Failures that plain data asks for. A description names the kind of the
failure and its message; a kind that is not known stands for a value
that makes no sense.
-/
import Depot.Value.Sequence

namespace Depot.Stub

/-- The failure that a mapping describes. -/
def failureOf (v : Value) : Except Fault Fault := do
  let spec ← v.entriesOf "get"
  let message := ((Fields.get? spec "message").getD (.str "boom")).label
  return match Fields.getD spec "kind" with
    | .str "runtime" => .gaveUp message
    | .str "component" => .component message
    | .str "requirement" => .requirement message
    | .str "provider" => .provider message
    | .str "merge" => .merge message
    | .str "provisioning" => .provisioning message
    | _ => .badValue message

/-- Fails as the value under a key asks for, if there is one. -/
def failIf (v : Value) (key : String) : Except Fault Unit := do
  match v.given key failureOf with
  | some failure => throw (← failure)
  | none => return ()

/-- Fails at a point if the description under `fail` is for that point. -/
def failAt (config : Value) (point : String) : Except Fault Unit := do
  let fail := config.field "fail"
  if !fail.isTruthy then return ()
  if (Fields.getD (← fail.entriesOf "get") "at").same (.str point) then
    throw (← failureOf fail)

end Depot.Stub
