/-
Quotas: how many resources of the capped types there may be, and how
much one of them may take. A quota that is not set caps nothing.
-/
import Depot.Reading.Entries

namespace Depot

/-- The quotas of a backend. -/
structure Limits where
  cosmosAccounts : Option Int := none
  functionApps : Option Int := none
  storageAccounts : Option Int := none
  functionsPerApp : Option Int := none
  containersPerStorage : Option Int := none
  deriving DecidableEq

namespace Limits

/-- The quotas that a mapping describes. -/
def ofEntries (es : Data.Entries) : Reading Limits :=
  let quota := fun key => Reading.part es key (Reading.optionalData Reading.naturalOf)
  Reading.closedTo ["max_cosmos_accounts", "max_function_apps", "max_storage_accounts",
    "max_functions_per_app", "max_containers_per_storage"] es <|
  Limits.mk <$> quota "max_cosmos_accounts" <*> quota "max_function_apps"
    <*> quota "max_storage_accounts" <*> quota "max_functions_per_app"
    <*> quota "max_containers_per_storage"

/-- The quotas that a mapping of plain values describes. -/
def ofFields (fs : Fields) : Reading Limits := ofEntries (Data.ofFields fs)

/-- The quotas that data describes. -/
def ofData : Data → Reading Limits := Reading.modelOf "ResourceLimits" ofEntries

/-- A quota as a value. -/
def quotaValue : Option Int → Value
  | some n => .int n
  | none => .null

/-- The quotas as a mapping. -/
def toFields (l : Limits) : Fields :=
  [("max_cosmos_accounts", quotaValue l.cosmosAccounts),
    ("max_function_apps", quotaValue l.functionApps),
    ("max_storage_accounts", quotaValue l.storageAccounts),
    ("max_functions_per_app", quotaValue l.functionsPerApp),
    ("max_containers_per_storage", quotaValue l.containersPerStorage)]

/-- How many resources of a type there may be. -/
def accountLimit (l : Limits) : Value → Option Int
  | .str "cosmos" => l.cosmosAccounts
  | .str "functions" => l.functionApps
  | .str "storage" => l.storageAccounts
  | _ => none

end Limits

end Depot
