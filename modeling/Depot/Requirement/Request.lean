/-
Requests: requirements as components declare them, with validators of
their own. Before anything is merged every validator of every request
is asked whether the requirement makes sense among all the others and
under the backend's profile.
-/
import Depot.Limits
import Depot.Naming
import Depot.Requirement.Basic
import Depot.Verdict
import Depot.Work

namespace Depot

/-- What a backend's configuration says, its providers aside. -/
structure Profile where
  environment : Option String := none
  location : Option String := none
  tags : Fields := []
  naming : Option NamingConvention := none
  limits : Limits := {}

/-- What a validator may look at besides its requirement. -/
structure Surroundings where
  requirements : List Requirement
  profile : Profile

/-- A check attached to a requirement. -/
structure Validator (σ : Type) where
  name : Value
  validate : Requirement → Surroundings → Work σ Verdict

/-- A requirement with its validators. -/
structure Request (σ : Type) extends Requirement where
  validators : List (Validator σ) := []

/-- What a component hands over as a requirement: a request, or a plain
value. -/
inductive Declared (σ : Type) where
  | request (r : Request σ)
  | plain (v : Value)

namespace Declared

variable {σ : Type}

/-- The request that was handed over. A plain mapping has to describe a
requirement. -/
def toRequest : Declared σ → Except Fault (Request σ)
  | .request r => .ok r
  | .plain v => do return ⟨← Requirement.ofValue v, []⟩

/-- The name of the resource that a request is for. A plain value has no
such name to ask for. -/
def resourceKey : Declared σ → Except Fault String
  | .request r => .ok r.toRequirement.resourceKey
  | .plain v => .error (v.lacks "resource_key")

end Declared

namespace Request

variable {σ : Type}

/-- The request as a mapping, with the names of its validators if it has
any. -/
def toFields (r : Request σ) : Except Fault Fields := do
  let names := r.validators.map Validator.name
  return (← r.toRequirement.toFields) ++
    if names.isEmpty then [] else [("validators", .list names)]

/-- The request with another configuration. -/
def withConfig (r : Request σ) (config : Value) : Except Fault (Request σ) := do
  return ⟨← r.toRequirement.withConfig config, r.validators⟩

/-- The request with its source recorded. -/
def withSource (r : Request σ) (id : Value) : Except Fault (Request σ) := do
  return ⟨← r.toRequirement.withSource id, r.validators⟩

end Request

end Depot
