/-
Providers: what merges the requests for one resource and makes the
resource. A provider may carry an id and the types that it supplies,
which only a registry asks to be usable; whether it can supply a
particular requirement it says itself.

A provided resource is either a handle, which describes something made
under a scope of its own, or whatever value the provider hands back.
-/
import Depot.Requirement.Request
import Depot.Table

namespace Depot

/-- The description of a provisioned resource. -/
structure Handle where
  name : String
  type : Value
  config : Fields
  scope : String
  tags : Fields := []
  location : Value := .null
  environment : Value := .null
  deriving DecidableEq

/-- A provisioned resource. -/
inductive Resource where
  | handle (h : Handle)
  | value (v : Value)
  deriving DecidableEq

/-- The resource as a value; a handle is shown as a mapping. -/
def Resource.toValue : Resource → Value
  | .value v => v
  | .handle h => .object [("name", .str h.name), ("resource_type", h.type),
      ("config", .object h.config), ("scope", .str h.scope), ("tags", .object h.tags),
      ("location", h.location), ("environment", h.environment)]

/-- Whether there is nothing behind a resource. -/
def Resource.isNull : Resource → Bool
  | .handle _ => false
  | .value v => v.isNull

/-- Resources by key, in the order of their making. -/
abbrev Resources := Table Resource

/-- What a component is given as its resources: resources by key as a rule.
It may be any other value, and only its use shows that. -/
inductive Supply where
  | resources (rs : Resources)
  | value (v : Value)

namespace Supply

/-- Whether there is something under a key. -/
def has (key : String) : Supply → Except Fault Bool
  | .resources rs => .ok (rs.has key)
  | .value v => v.contains (.str key)

/-- What stands under a key. -/
def get? (key : String) : Supply → Except Fault (Option Resource)
  | .resources rs => .ok (rs.lookup key)
  | .value v => .error (v.lacks "get")

/-- The keys in rising order. -/
def keys : Supply → Except Fault (List Value)
  | .resources rs => .ok ((rs.keys.mergeSort fun a b => decide (a ≤ b)).map .str)
  | .value v => do Value.inOrder (← v.iterate)

end Supply

/-- What a provider may read while it makes a resource. -/
structure Provisioning where
  backendId : Value
  naming : NamingConvention := .joined {}
  tags : Value := .object []
  existing : Resources := []
  location : Value := .null
  environment : Value := .null
  limits : Limits := {}

/-- The context as a mapping, existing resources by their keys. -/
def Provisioning.toFields (p : Provisioning) : Fields :=
  [("backend_id", p.backendId), ("tags", p.tags),
    ("existing", .texts p.existing.keys), ("location", p.location),
    ("environment", p.environment), ("limits", .object p.limits.toFields)]

/-- A provider. -/
structure Provider (σ : Type) where
  id : Option Value
  /-- The types that the provider supplies; null if it tells none. -/
  types : Value
  canProvide : Requirement → Work σ Bool
  merge : List (Request σ) → Work σ (Request σ)
  validateMerged : Requirement → Work σ Verdict
  provide : Requirement → Provisioning → SiteWork σ Resource

end Depot
