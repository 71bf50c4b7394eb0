/-
Requests that plain data describes, with validators that say what they
are told to say. A validator may also raise, count the requirements, ask
for an environment and ask for a key.
-/
import Depot.Requirement.Request
import Depot.Stub.Failure

namespace Depot.Stub

variable {σ : Type}

/-- The verdict that a mapping describes, with more errors. -/
def verdictOf (v : Value) (more : List String := []) : Except Fault Verdict := do
  let spec := Value.object (← v.entriesOf "get")
  return .ofMessages ((← spec.walkAt "errors") ++ more.map .str) (← spec.walkAt "warnings")

/-- What a validator finds beyond what it is told. -/
def findings (v : Value) (r : Requirement) (around : Surroundings) :
    Except Fault (List String) := do
  let total := Value.int around.requirements.length
  let isOver ← (v.given "max_total" (Value.compare .above total)).getD (.ok false)
  let place := Value.ofText? around.profile.environment
  let isWrong := !place.same (v.fieldOr "environment" place)
  let missing ← (v.given "need_key" fun key => do
    return if ← (Value.object r.config).contains key then [] else [s!"missing {key.label}"]).getD
      (.ok [])
  return (if isOver then [s!"total {total.label}"] else []) ++
    (if isWrong then [s!"wrong environment {place.label}"] else []) ++ missing

/-- The validator that a mapping describes. -/
def validatorOf (v : Value) : Except Fault (Validator σ) := do
  let spec ← v.entriesOf "get"
  return {
    name := (Fields.get? spec "name").getD (.str "v")
    validate := fun r around => do
      if let some message := Fields.get? spec "raise" then throw (.badValue message.label)
      verdictOf v (← findings v r around) }

/-- The request that a mapping describes. -/
def requestOf (v : Value) : Except Fault (Request σ) := do
  let spec ← v.entriesOf "get"
  let validators ← (← v.walkAt "validators").mapM validatorOf
  discard ((v.given "metadata" (Value.entriesOf "get")).getD (.ok []))
  return ⟨← Requirement.ofFields spec, validators⟩

/-- The requirement that a mapping describes. -/
def requirementOf (v : Value) : Except Fault Requirement := do
  return (← requestOf (σ := Unit) v).toRequirement

/-- The requirements in the list under a key. -/
def requirementsAt (v : Value) (key : String) : Except Fault (List Requirement) := do
  (← v.walkAt key).mapM requirementOf

/-- What a component hands over: a request, a mapping that is marked as
plain, or another plain value. -/
def declaredOf (v : Value) : Except Fault (Declared σ) :=
  match v with
  | .object fs =>
      if (v.field "as").same (.str "mapping") then .ok (.plain (.object (Fields.erase fs "as")))
      else do return .request (← requestOf v)
  | v => .ok (.plain v)

end Depot.Stub
