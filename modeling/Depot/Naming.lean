/-
Names for provisioned resources and for the groups that hold them: the
given parts in small letters, joined by a separator, after a common
beginning if there is one.

The common beginning and the separator are kept as they came, and are
asked for being texts only when a name is made of them. A caller may also
bring a naming convention of its own.
-/
import Depot.Value.Sequence
import Depot.Text.Case

namespace Depot

/-- How resources are named. -/
structure Naming where
  lead : Value := .null
  separator : Value := .str "-"
  deriving DecidableEq

namespace Naming

/-- The convention that a mapping describes. -/
def ofFields (fs : Fields) : Naming :=
  ⟨Fields.getD fs "prefix", (Fields.get? fs "separator").getD (.str "-")⟩

/-- The given ones of some parts, joined and in small letters. -/
def join (n : Naming) (parts : List Value) : Except Fault String :=
  match n.separator with
  | .str separator => do
      return lowerCase (← Value.joinTexts separator (parts.filter Value.isTruthy))
  | v => .error (v.lacks "join")

/-- The name of a resource. -/
def resourceName (n : Naming) (type backendId : Value) (suffix : Value := .null) :
    Except Fault String :=
  n.join [n.lead, type, backendId, suffix]

/-- The name of a group of resources. -/
def groupName (n : Naming) (backendId : Value) (environment : Value := .null) :
    Except Fault String :=
  n.join [.str "rg", n.lead, backendId, environment]

/-- The convention as a mapping. -/
def toFields (n : Naming) : Fields := [("prefix", n.lead), ("separator", n.separator)]

end Naming

/-- A naming convention: names of joined parts, or names that a caller
makes in its own way. -/
inductive NamingConvention where
  | joined (n : Naming)
  | own (resource : (type backendId suffix : Value) → Except Fault String)
      (group : (backendId environment : Value) → Except Fault String)

namespace NamingConvention

/-- The name of a resource. -/
def resourceName : NamingConvention → (type backendId : Value) → (suffix : Value := .null) →
    Except Fault String
  | joined n, type, backendId, suffix => n.resourceName type backendId suffix
  | own resource _, type, backendId, suffix => resource type backendId suffix

/-- The name of a group of resources. -/
def groupName : NamingConvention → (backendId : Value) → (environment : Value := .null) →
    Except Fault String
  | joined n, backendId, environment => n.groupName backendId environment
  | own _ group, backendId, environment => group backendId environment

/-- The parts of the convention; a caller's own has none to tell. -/
def toFields : NamingConvention → Fields
  | joined n => n.toFields
  | own _ _ => []

end NamingConvention

end Depot
