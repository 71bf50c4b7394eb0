/-
Storage accounts. Blob containers that several components ask for live
side by side in one account, under names that begin with the id of the
component that owns them. Of several levels of public access to one
container the most restrictive holds; an account takes the highest tier
and the hottest access tier asked for.
-/
import Depot.Provider.Functions

namespace Depot.Storage

/-- The greatest number of containers in an account. -/
def maxContainers : Nat := 250

-- ============================================================= model

/-- How much of a container the public may read. -/
inductive PublicAccess where
  | nothing
  | blob
  | container
  deriving DecidableEq

/-- The levels of public access by name. -/
def PublicAccess.choices : List (String × PublicAccess) :=
  [("None", .nothing), ("Blob", .blob), ("Container", .container)]

/-- The name of a level of public access. -/
def PublicAccess.name : PublicAccess → String
  | .nothing => "None"
  | .blob => "Blob"
  | .container => "Container"

/-- How readily data is at hand. -/
inductive Tier where
  | hot
  | cool
  deriving DecidableEq

/-- The access tiers by name. -/
def Tier.choices : List (String × Tier) := [("Hot", .hot), ("Cool", .cool)]

/-- The name of an access tier. -/
def Tier.name : Tier → String
  | .hot => "Hot"
  | .cool => "Cool"

/-- A blob container, with the component that owns it. -/
structure Container where
  name : String
  owner : Option String := none
  access : Option PublicAccess := none
  deriving DecidableEq

/-- What is asked of an account. -/
structure Account where
  sku : Option String := none
  tier : Option Tier := none
  containers : Option (List Container) := none
  blobAccess : Option Bool := none
  location : Option String := none
  deriving DecidableEq

-- =========================================================== reading

open Reading in
/-- The container that a mapping describes. -/
def Container.ofFields (fs : Fields) : Reading Container :=
  closed ["name", "component_id", "public_access"] fs <|
  Container.mk <$> field fs "name" (required text) <*> field fs "component_id" (optional text)
    <*> field fs "public_access" (optional (oneOf PublicAccess.choices))

open Reading in
/-- The account that a mapping describes. -/
def Account.ofEntries (es : Entries) : Reading Account :=
  let fs := es.named
  let container := model "StorageContainer" Container.ofFields
  closedTo ["sku", "access_tier", "containers", "enable_blob_public_access", "location"]
      (Data.ofEntries es) <|
  Account.mk <$> field fs "sku" (optional text)
    <*> field fs "access_tier" (optional (oneOf Tier.choices))
    <*> field fs "containers" (optional (many container))
    <*> field fs "enable_blob_public_access" (optional truth)
    <*> field fs "location" (optional text)

-- =========================================================== writing

/-- The container as a mapping, null where something is not set. -/
def Container.toFields (c : Container) : Fields :=
  [("name", .str c.name), ("component_id", .ofText? c.owner),
    ("public_access", .ofOption (fun x => .str x.name) c.access)]

/-- The account as a mapping, null where something is not set. -/
def Account.toFields (a : Account) (container : Container → Fields) : Fields :=
  let containers := Value.ofOption fun (cs : List Container) =>
    .list (cs.map fun c => .object (container c))
  [("sku", .ofText? a.sku), ("access_tier", .ofOption (fun x => .str x.name) a.tier),
    ("containers", containers a.containers),
    ("enable_blob_public_access", .ofOption .bool a.blobAccess),
    ("location", .ofText? a.location)]

/-- The account with every field. -/
def Account.describe (a : Account) : Fields := a.toFields Container.toFields

/-- The account as a configuration: only what is set. -/
def Account.write (a : Account) : Fields :=
  Fields.dropNulls (a.toFields fun c => Fields.dropNulls c.toFields)

-- ============================================================= names

/-- A component id as the beginning of container names: words apart, in
small letters. -/
def ownerLead (owner : String) : List Char :=
  let split := owner.toList.flatMap fun c => if 'A' ≤ c && c ≤ 'Z' then ['-', c] else [c]
  match Text.lower split with
  | '-' :: rest => rest
  | cs => cs

/-- The name of a container in a common account. What is shared keeps its
name, and so does what already has it. -/
def containerName (name : String) : Option String → String
  | none | some "" | some "shared" => name
  | some owner =>
      let lead := ownerLead owner ++ ['-']
      if lead.isPrefixOf name.toList then name else String.ofList lead ++ name

/-- The name of a container in a common account, where the name and the
owner may be no texts. -/
def containerNameOf (name owner : Value) : Except Fault Value :=
  if !owner.isTruthy then .ok name
  else match owner, name with
    | .str owner, .str name => .ok (.str (containerName name owner))
    | .str owner, name => if owner = "shared" then .ok name else .error (name.lacks "startswith")
    | owner, _ => .error (.badType s!"expected string or bytes-like object, got '{owner.typeName}'")

/-- The name of a container in a common account. -/
def Container.fullName (c : Container) : String := containerName c.name c.owner

-- =========================================================== merging

/-- The more restrictive of two levels of public access; of a level and
none at all, the later. -/
def mostRestrictive (a b : Option PublicAccess) : Option PublicAccess :=
  if a = some .nothing ∨ b = some .nothing then some .nothing
  else if a = some .blob ∨ b = some .blob then some .blob
  else b

/-- Puts a request for a container to the one of the same name. -/
def mergeInto (new : Container) : List Container → List Container
  | [] => [new]
  | old :: rest =>
      if old.name = new.name then
        { new with access := mostRestrictive old.access new.access } :: rest
      else old :: mergeInto new rest

/-- The containers of several accounts under their full names. -/
def mergeContainers (accounts : List Account) : Except Fault (List Container) := do
  let requested := accounts.flatMap fun a => a.containers.getD []
  let merged := requested.foldl
    (fun acc c => mergeInto { c with name := c.fullName } acc) []
  if maxContainers < merged.length then
    throw (.limitExceeded (.str "storage") (.int maxContainers) (.int merged.length))
  return merged

/-- The rank of a tier; an unknown one ranks lowest. -/
def skuRank (sku : String) : Nat :=
  (["Standard_LRS", "Standard_GRS", "Standard_RAGRS", "Standard_ZRS", "Premium_LRS",
    "Premium_ZRS"].findIdx? (· = sku)).elim 0 (· + 1)

/-- The highest of several tiers. -/
def highestSku : List String → Except Fault String := Functions.highestRanked skuRank

/-- The hottest of several access tiers. -/
def hottest (tiers : List Tier) : Option Tier :=
  if tiers.isEmpty then none else if Tier.hot ∈ tiers then some .hot else some .cool

/-- Several accounts as one. What cannot be merged is as the first asks
for it. -/
def merge : List Account → Except Fault Account
  | [] => .error (.noPosition "list index out of range")
  | base :: rest => do
      let all := base :: rest
      let skus := all.filterMap Account.sku
      let sku ← if skus.isEmpty then pure none else some <$> highestSku skus
      let containers ← mergeContainers all
      return { base with
        sku := sku
        tier := hottest (all.filterMap Account.tier)
        containers := some containers
        blobAccess :=
          if all.any fun a => a.blobAccess = some false then some false else base.blobAccess }

/-- The full names of an account's containers. -/
def fullNames (a : Account) : List String := (a.containers.getD []).map Container.fullName

/-- Whether two accounts can be one: they must not ask for the same
container. -/
def canMerge (a b : Account) : Bool := !(fullNames a).any fun name => name ∈ fullNames b

-- ========================================================== checking

/-- The characters of a container name. -/
def isNameChar (c : Char) : Bool :=
  ('a' ≤ c && c ≤ 'z') || ('0' ≤ c && c ≤ '9') || c = '-'

/-- What is wrong with a container. -/
def Container.errors (c : Container) : List String :=
  let cs := c.name.toList
  let what := s!"Container name '{c.name}'"
  if c.name = "" then ["Container name cannot be empty"]
  else
    (if 3 ≤ cs.length ∧ cs.length ≤ 63 then [] else [s!"{what} must be 3-63 characters long"]) ++
    (if Text.isWholly isNameChar cs then []
    else [s!"{what} must contain only lowercase letters, numbers, and hyphens"]) ++
    (if cs.head? = some '-' ∨ cs.getLast? = some '-' then
      [s!"{what} cannot start or end with a hyphen"] else []) ++
    (if Text.occursIn ['-', '-'] cs then [s!"{what} cannot contain consecutive hyphens"] else [])

/-- The verdict on an account. -/
def check (a : Account) : Verdict :=
  let containers := a.containers.getD []
  let countErrors := if maxContainers < containers.length then
    let count := s!"Configuration specifies {containers.length} containers"
    [s!"{count}, exceeding limit of {maxContainers}"] else []
  let warnings := if a.blobAccess = some true then
    ["Blob public access is enabled. Ensure this is intentional for security."] else []
  .ofTexts (countErrors ++ containers.flatMap Container.errors) warnings

-- =========================================================== the kind

/-- The id of the provider. -/
def providerId : String := "storage-provider"

/-- The configurations of Storage accounts. -/
def model : Model Account where
  id := providerId
  type := "storage"
  limit := maxContainers
  read := Account.ofEntries
  describe := Account.describe
  write := Account.write
  check := check
  canMerge := canMerge
  merge := merge

/-- Storage accounts as a kind of resource. -/
def kind {σ : Type} : Kind σ Account := .ofModel model

/-- The names of the containers that a component owns. -/
def containersOf (a : Account) (owner : Value) : List String :=
  ((a.containers.getD []).filter fun c => (Value.ofText? c.owner).same owner).map Container.name

end Depot.Storage
