/-
Cosmos accounts. Several components that ask for one account share it:
their databases are merged by name, and within a database the containers
by name. A container keeps its partition key, the shorter of two times
to live and all unique keys; an account keeps the most restrictive
network access.

An account holds at most 25 databases and a database at most 100
containers.
-/
import Depot.Provider.Kind
import Depot.Reading.Entries

namespace Depot.Cosmos

/-- The greatest number of databases in an account. -/
def maxDatabases : Nat := 25

/-- The greatest number of containers in a database. -/
def maxContainers : Nat := 100

-- ============================================================= model

/-- Who may reach an account over the network, most restrictive first. -/
inductive Access where
  | disabled
  | byPerimeter
  | enabled
  deriving DecidableEq

/-- The name of a kind of access. -/
def Access.name : Access → String
  | .disabled => "Disabled"
  | .byPerimeter => "SecuredByPerimeter"
  | .enabled => "Enabled"

/-- The kinds of access by name. -/
def Access.choices : List (String × Access) :=
  [("Enabled", .enabled), ("Disabled", .disabled), ("SecuredByPerimeter", .byPerimeter)]

/-- A container of a database. -/
structure Container where
  name : String
  partitionKey : String
  uniqueKeys : Option (List String) := none
  ttl : Option Int := none
  indexing : Option Fields := none
  deriving DecidableEq

/-- A database of an account. -/
structure Database where
  name : String
  containers : List Container := []
  deriving DecidableEq

/-- What is asked of an account. -/
structure Account where
  consistency : Option String := none
  serverless : Option Bool := none
  multiRegion : Option Bool := none
  freeTier : Option Bool := none
  access : Option Access := none
  kind : Option String := none
  capabilities : Option (List String) := none
  databases : Option (List Database) := none
  location : Option String := none
  moreLocations : Option (List String) := none
  deriving DecidableEq

-- =========================================================== reading

open Reading in
/-- The container that a mapping describes. -/
def Container.ofFields (fs : Fields) : Reading Container :=
  closed ["name", "partition_key", "unique_keys", "ttl", "indexing_policy"] fs <|
  Container.mk <$> field fs "name" (required text) <*> field fs "partition_key" (required text)
    <*> field fs "unique_keys" (optional (many text)) <*> field fs "ttl" (optional whole)
    <*> field fs "indexing_policy" (optional mapping)

open Reading in
/-- The database that a mapping describes. -/
def Database.ofFields (fs : Fields) : Reading Database :=
  let container := model "CosmosContainer" Container.ofFields
  closed ["name", "containers"] fs <|
  Database.mk <$> field fs "name" (required text)
    <*> field fs "containers" (orElse [] (many container))

open Reading in
/-- The account that a mapping describes. -/
def Account.ofEntries (es : Entries) : Reading Account :=
  let fs := es.named
  let database := model "CosmosDatabase" Database.ofFields
  closedTo ["consistency", "enable_serverless", "enable_multi_region", "enable_free_tier",
    "public_network_access", "kind", "capabilities", "databases", "location",
    "additional_locations"] (Data.ofEntries es) <|
  Account.mk <$> field fs "consistency" (optional text)
    <*> field fs "enable_serverless" (optional truth)
    <*> field fs "enable_multi_region" (optional truth)
    <*> field fs "enable_free_tier" (optional truth)
    <*> field fs "public_network_access" (optional (oneOf Access.choices))
    <*> field fs "kind" (optional text)
    <*> field fs "capabilities" (optional (many text))
    <*> field fs "databases" (optional (many database))
    <*> field fs "location" (optional text)
    <*> field fs "additional_locations" (optional (many text))

-- =========================================================== writing

/-- The container as a mapping, null where something is not set. -/
def Container.toFields (c : Container) : Fields :=
  [("name", .str c.name), ("partition_key", .str c.partitionKey),
    ("unique_keys", .ofOption .texts c.uniqueKeys), ("ttl", .ofOption .int c.ttl),
    ("indexing_policy", .ofOption .object c.indexing)]

/-- The database as a mapping. -/
def Database.toFields (d : Database) (container : Container → Fields) : Fields :=
  [("name", .str d.name), ("containers", .list (d.containers.map fun c => .object (container c)))]

/-- The account as a mapping, null where something is not set. -/
def Account.toFields (a : Account) (database : Database → Fields) : Fields :=
  [("consistency", .ofOption .str a.consistency),
    ("enable_serverless", .ofOption .bool a.serverless),
    ("enable_multi_region", .ofOption .bool a.multiRegion),
    ("enable_free_tier", .ofOption .bool a.freeTier),
    ("public_network_access", .ofOption (fun x => .str x.name) a.access),
    ("kind", .ofOption .str a.kind), ("capabilities", .ofOption .texts a.capabilities),
    ("databases", .ofOption (fun ds => .list (ds.map fun d => .object (database d))) a.databases),
    ("location", .ofOption .str a.location),
    ("additional_locations", .ofOption .texts a.moreLocations)]

/-- The account with every field. -/
def Account.describe (a : Account) : Fields :=
  a.toFields fun d => d.toFields Container.toFields

/-- The account as a configuration: only what is set. -/
def Account.write (a : Account) : Fields :=
  Fields.dropNulls (a.toFields fun d => d.toFields fun c => Fields.dropNulls c.toFields)

-- =========================================================== merging

/-- The texts of several lists, each once; nothing if there are none. -/
def unite (lists : List (Option (List String))) : Option (List String) :=
  match (lists.flatMap fun l => l.getD []).eraseDups with
  | [] => none
  | all => some all

/-- The shorter of two times to live, if both are set. -/
def shorter : Option Int → Option Int → Option Int
  | some a, some b => some (min a b)
  | some a, none => some a
  | none, b => b

/-- Two requests for one container as one. -/
def Container.merge (current new : Container) : Except Fault Container :=
  if current.partitionKey ≠ new.partitionKey then
    let keys := s!"'{current.partitionKey}' vs '{new.partitionKey}'"
    .error (.incompatibleConfigs (.str "cosmos")
      (.str s!"container '{new.name}' has conflicting partition keys: {keys}"))
  else
    let indexing := match new.indexing with
      | none | some [] => current.indexing
      | given => given
    .ok ⟨new.name, current.partitionKey, unite [current.uniqueKeys, new.uniqueKeys],
      shorter current.ttl new.ttl, indexing⟩

/-- Merges an item into the one of its name, or puts it at the end. -/
def mergeInto {α : Type} (name : α → String) (merge : α → α → Except Fault α) (new : α) :
    List α → Except Fault (List α)
  | [] => .ok [new]
  | old :: rest => do
      if name old = name new then return (← merge old new) :: rest
      else return old :: (← mergeInto name merge new rest)

/-- The containers of a database, each name once; of several the last
stays. -/
def lastOfEachName (containers : List Container) : List Container :=
  containers.foldl (fun acc c =>
    if acc.any fun d => d.name = c.name then acc.map fun d => if d.name = c.name then c else d
    else acc ++ [c]) []

/-- Containers merged by name. -/
def mergeContainers (existing incoming : List Container) : Except Fault (List Container) := do
  let merged ← incoming.foldlM (fun acc c => mergeInto Container.name Container.merge c acc)
    (lastOfEachName existing)
  if maxContainers < merged.length then
    throw (.limitExceeded (.str "cosmos") (.int maxContainers) (.int merged.length))
  return merged

/-- Two requests for one database as one. -/
def Database.merge (current new : Database) : Except Fault Database := do
  return ⟨new.name, ← mergeContainers current.containers new.containers⟩

/-- The databases of several accounts, merged by name. -/
def mergeDatabases (accounts : List Account) : Except Fault (Option (List Database)) := do
  if accounts.all fun a => a.databases.isNone then return none
  let requested := accounts.flatMap fun a => a.databases.getD []
  let merged ← requested.foldlM (fun acc d => mergeInto Database.name Database.merge d acc) []
  if maxDatabases < merged.length then
    throw (.limitExceeded (.str "cosmos") (.int maxDatabases) (.int merged.length))
  return some merged

/-- The most restrictive access of several accounts. -/
def strictest (accounts : List Account) : Option Access :=
  [Access.disabled, .byPerimeter, .enabled].find? fun x => accounts.any fun a => a.access = some x

/-- A setting that one account turns on for all. -/
def anyOn (setting : Account → Option Bool) (accounts : List Account) (base : Option Bool) :
    Option Bool :=
  if accounts.any fun a => setting a = some true then some true else base

/-- Several accounts as one. What cannot be merged is as the first asks
for it. -/
def merge : List Account → Except Fault Account
  | [] => .error (.noPosition "list index out of range")
  | base :: rest => do
      let all := base :: rest
      let databases ← mergeDatabases all
      return { base with
        multiRegion := anyOn Account.multiRegion all base.multiRegion
        freeTier := anyOn Account.freeTier all base.freeTier
        access := strictest all
        capabilities := unite (all.map Account.capabilities)
        databases := databases
        moreLocations := unite (all.map Account.moreLocations) }

/-- Whether two settings are both given and not the same. -/
def differs {α : Type} [DecidableEq α] : Option α → Option α → Bool
  | some a, some b => a ≠ b
  | _, _ => false

/-- Whether two accounts can be one. -/
def canMerge (a b : Account) : Bool :=
  !differs a.consistency b.consistency && a.serverless = b.serverless &&
    !differs a.kind b.kind && !differs a.multiRegion b.multiRegion

-- ========================================================== checking

/-- What is wrong with a container. -/
def Container.errors (database : String) (c : Container) : List String :=
  (if c.name = "" then [s!"Container name cannot be empty in database '{database}'"] else []) ++
  (if c.partitionKey = "" then
    [s!"Container '{c.name}' in database '{database}' must specify a partition key"]
  else if c.partitionKey.toList.head? ≠ some '/' then
    [s!"Partition key '{c.partitionKey}' for container '{c.name}' must start with '/'"]
  else [])

/-- What is wrong with a database. -/
def Database.errors (d : Database) : List String :=
  let count := d.containers.length
  (if d.name = "" then ["Database name cannot be empty"] else []) ++
  (if maxContainers < count then
    [s!"Database '{d.name}' specifies {count} containers, exceeding limit of {maxContainers}"]
  else []) ++
  d.containers.flatMap (Container.errors d.name)

/-- The verdict on an account. -/
def check (a : Account) : Verdict :=
  let serverless := a.serverless = some true
  let freeTier := a.freeTier = some true
  let databases := a.databases.getD []
  let regionErrors := if serverless ∧ a.multiRegion = some true then
    ["Serverless accounts do not support multi-region configuration"] else []
  let countErrors := if maxDatabases < databases.length then
    let count := s!"Configuration specifies {databases.length} databases"
    [s!"{count}, exceeding limit of {maxDatabases}"] else []
  let tierWarnings := if serverless ∧ freeTier then
    ["Free tier is not applicable to serverless accounts"] else []
  let onceWarnings := if freeTier then
    ["Only one free tier Cosmos DB account is allowed per Azure subscription"] else []
  .ofTexts (regionErrors ++ countErrors ++ databases.flatMap Database.errors)
    (tierWarnings ++ onceWarnings)

-- =========================================================== the kind

/-- The id of the provider. -/
def providerId : String := "cosmos-provider"

/-- The configurations of Cosmos accounts. -/
def model : Model Account where
  id := providerId
  type := "cosmos"
  limit := maxDatabases
  read := Account.ofEntries
  describe := Account.describe
  write := Account.write
  check := check
  canMerge := canMerge
  merge := merge

/-- Cosmos accounts as a kind of resource. -/
def kind {σ : Type} : Kind σ Account := .ofModel model

/-- The names of the databases. -/
def databaseNames (a : Account) : List String := (a.databases.getD []).map Database.name

/-- The names of the containers of a database, if there is the
database. -/
def containerNames? (a : Account) (database : Value) : Option (List String) :=
  ((a.databases.getD []).find? fun d => (Value.str d.name).same database).map fun d =>
    d.containers.map Container.name

end Depot.Cosmos
