/-
Function Apps. Components that ask for one app are hosted in it
together. Their environment variables get names that say which component
they belong to, unless they are shared; the app runs the highest version
asked for, on the highest tier.

Versions are compared number by number; a part that is not a number
counts as zero. A merged variable keeps no owner: its name already says
whose it is, and a second merge leaves it alone.
-/
import Depot.Environment.Name
import Depot.Number.Written
import Depot.Provider.Kind
import Depot.Reading.Entries
import Depot.Table

namespace Depot.Functions

/-- The greatest number of requests that one app serves. -/
def maxFunctions : Nat := 200

/-- The greatest number of environment variables of an app. -/
def maxVariables : Nat := 1000

/-- The runtimes that an app can have. -/
def runtimes : List String := ["node", "python", "dotnet", "java", "powershell"]

-- ============================================================= model

/-- An environment variable, with the component that owns it. -/
structure Variable where
  value : String
  owner : Option String := none
  deriving DecidableEq

/-- Environment variables by name. -/
abbrev Variables := Table Variable

/-- What is asked of an app. The plan and the storage account refer to
other resources and may be any values. -/
structure App where
  runtime : String
  version : Option String := none
  sku : Option String := none
  alwaysOn : Option Bool := none
  environment : Option Variables := none
  extensions : Option (List String) := none
  plan : Value := .null
  storageAccount : Value := .null
  location : Option String := none
  deriving DecidableEq

-- =========================================================== reading

open Reading in
/-- The variable that a mapping describes. -/
def Variable.ofFields (fs : Fields) : Reading Variable :=
  closed ["value", "component_id"] fs <|
  Variable.mk <$> field fs "value" (required text) <*> field fs "component_id" (optional text)

/-- The variable that a value describes; a text alone is its value. -/
def Variable.ofValue : Value → Reading Variable
  | .str s => .ok ⟨s, none⟩
  | v => Reading.model "EnvironmentVariable" Variable.ofFields v

open Reading in
/-- The app that a mapping describes. -/
def App.ofEntries (es : Entries) : Reading App :=
  let fs := es.named
  closedTo ["runtime", "version", "sku", "always_on", "environment_variables", "extensions",
    "plan", "storage_account", "location"] (Data.ofEntries es) <|
  App.mk <$> field fs "runtime" (required text) <*> field fs "version" (optional text)
    <*> field fs "sku" (optional text) <*> field fs "always_on" (optional truth)
    <*> field fs "environment_variables" (optional (mappingOf Variable.ofValue))
    <*> field fs "extensions" (optional (many text))
    <*> field fs "plan" (orElse .null anything)
    <*> field fs "storage_account" (orElse .null anything)
    <*> field fs "location" (optional text)

-- =========================================================== writing

/-- The variable as a mapping. -/
def Variable.toFields (v : Variable) : Fields :=
  [("value", .str v.value), ("component_id", .ofText? v.owner)]

/-- The app as a mapping, null where something is not set. -/
def App.toFields (a : App) (entry : Variable → Fields) : Fields :=
  let environment := Value.ofOption fun (vs : Variables) =>
    .object (vs.map fun (k, v) => (k, .object (entry v)))
  [("runtime", .str a.runtime), ("version", .ofText? a.version), ("sku", .ofText? a.sku),
    ("always_on", .ofOption .bool a.alwaysOn), ("environment_variables", environment a.environment),
    ("extensions", .ofOption .texts a.extensions), ("plan", a.plan),
    ("storage_account", a.storageAccount), ("location", .ofText? a.location)]

/-- The app with every field. -/
def App.describe (a : App) : Fields := a.toFields Variable.toFields

/-- The app as a configuration: only what is set. -/
def App.write (a : App) : Fields :=
  Fields.dropNulls (a.toFields fun v => Fields.dropNulls v.toFields)

-- ========================================================= variables

/-- The owners whose variables keep their names. -/
def sharedOwners : List String := ["shared", "unknown"]

/-- The name of a variable in the app. -/
def settingName (key : String) (v : Variable) : String :=
  match v.owner with
  | none | some "" => key
  | some owner =>
      if owner ∈ sharedOwners then key else Environment.splitName owner key

/-- One more variable of an app. -/
def addVariable (merged : Variables) (entry : String × Variable) : Except Fault Variables :=
  let (key, v) := entry
  let name := settingName key v
  match merged.lookup name with
  | some current =>
      if current.value ≠ v.value then
        let values := s!"'{current.value}' vs '{v.value}'"
        .error (.incompatibleConfigs (.str "functions")
          (.str s!"environment variable conflict for '{name}': {values}"))
      else .ok (Table.put name ⟨v.value, none⟩ merged)
  | none => .ok (Table.put name ⟨v.value, none⟩ merged)

/-- All variables of several apps under the names that they have in a
common one. -/
def mergeVariables (apps : List App) : Except Fault Variables := do
  let merged ← (apps.flatMap fun a => a.environment.getD []).foldlM addVariable []
  if maxVariables < merged.length then
    throw (.limitExceeded (.str "functions") (.int maxVariables) (.int merged.length))
  return merged

-- ============================================================= tiers

/-- The rank of a tier; an unknown one ranks lowest. -/
def skuRank (sku : String) : Nat :=
  (["Y1", "EP1", "EP2", "EP3", "P1V2", "P2V2", "P3V2", "P1V3", "P2V3", "P3V3"].findIdx?
    (· = sku)).elim 0 (· + 1)

/-- The first text of the highest rank. -/
def highestRanked (rank : String → Nat) : List String → Except Fault String
  | [] => .error (.noPosition "list index out of range")
  | first :: rest => .ok (rest.foldl (fun best s => if rank best < rank s then s else best) first)

/-- The highest of several tiers. -/
def highestSku : List String → Except Fault String := highestRanked skuRank

/-- The first item of the highest rank, where an item may be no text. A
single item is not ranked at all. -/
def highestRankedOf (rank : String → Nat) (items : Value) : Except Fault Value := do
  let rankOf := fun (v : Value) => do return (← v.asName).text?.elim 0 rank
  match ← items.byPosition with
  | [] => throw (.noPosition "list index out of range")
  | first :: rest =>
      rest.foldlM (fun best v => do return if (← rankOf best) < (← rankOf v) then v else best) first

-- ========================================================== versions

/-- The number that a part of a version writes. A digit that cannot stand
in a number is refused, and so is a number that is too long. -/
def partNumber (part : List Char) : Except Fault Int :=
  if part.isEmpty || !part.all Text.isDigit then .ok 0 else Written.whole 10 part

/-- The numbers of a version. -/
def versionNumbers (version : String) : Except Fault (List Int) :=
  (Text.cut '.' version.toList).mapM partNumber

/-- Whether a version stands before another. -/
def versionBelow : List Int → List Int → Bool
  | [], [] => false
  | [], _ :: _ => true
  | _ :: _, [] => false
  | a :: as, b :: bs => if a = b then versionBelow as bs else a < b

/-- A version with its numbers. -/
def withNumbers (version : String) : Except Fault (String × List Int) := do
  return (version, ← versionNumbers version)

/-- The first of the highest versions, each with its numbers. -/
def firstHighest : List (String × List Int) → Except Fault String
  | [] => .error (.badValue "max() arg is an empty sequence")
  | first :: rest =>
      .ok (rest.foldl (fun best v => if versionBelow best.2 v.2 then v else best) first).1

/-- The first of the highest versions. -/
def highestVersion (versions : List String) : Except Fault String := do
  firstHighest (← versions.mapM withNumbers)

/-- The first of the highest versions in a sequence, each of which has to be
a text. -/
def highestVersionOf (versions : Value) : Except Fault String := do
  firstHighest (← (← versions.iterate).mapM fun
    | .str version => withNumbers version
    | v => .error (v.lacks "split"))

/-- The characters of a version: numbers with points between them. A line
feed may follow. -/
def isVersion (cs : List Char) : Bool :=
  let body := if cs.getLast? = some '\n' then cs.dropLast else cs
  (Text.cut '.' body).all fun part => !part.isEmpty && part.all Text.isDecimal

-- =========================================================== merging

/-- Several apps as one. What cannot be merged is as the first asks for
it. -/
def merge : List App → Except Fault App
  | [] => .error (.noPosition "list index out of range")
  | base :: rest => do
      let all := base :: rest
      let extensions := (all.flatMap fun a => a.extensions.getD []).eraseDups
      let versions := all.filterMap App.version
      let version ← if 1 < versions.length then some <$> highestVersion versions
        else pure base.version
      let skus := all.filterMap App.sku
      let sku ← if skus.isEmpty then pure none else some <$> highestSku skus
      let environment ← mergeVariables all
      return { base with
        version := version
        sku := sku
        alwaysOn := if all.any fun a => a.alwaysOn = some true then some true else base.alwaysOn
        environment := some environment
        extensions := if extensions.isEmpty then none else some extensions }

/-- The variables of an app under the names that they have in a common
one. -/
def namedVariables (a : App) : List (String × String) :=
  (a.environment.getD []).map fun (key, v) => (settingName key v, v.value)

/-- Whether two versions are of one major version; one that is not given
goes with every other. -/
def sameMajor : Option String → Option String → Bool
  | some a, some b =>
      a = "" || b = "" || a = b || (cutString '.' a).head? = (cutString '.' b).head?
  | _, _ => true

/-- Whether two apps can be one. -/
def canMerge (a b : App) : Bool :=
  let values := Table.ofEntries (namedVariables a)
  a.runtime = b.runtime && sameMajor a.version b.version &&
    (namedVariables b).all fun (name, value) =>
      match values.lookup name with
      | some current => current = value
      | none => true

-- ========================================================== checking

/-- The verdict on an app. -/
def check (a : App) : Verdict :=
  let names := ", ".intercalate runtimes
  let runtimeErrors := if a.runtime ∈ runtimes then []
    else [s!"Invalid runtime '{a.runtime}'. Must be one of: {names}"]
  let versionErrors := match a.version with
    | none | some "" => []
    | some v => if isVersion v.toList then []
        else [s!"Invalid version format '{v}'. Expected format: X.Y.Z"]
  let count := (a.environment.getD []).length
  let countErrors := if maxVariables < count then
    let found := s!"Configuration specifies {count} environment variables"
    [s!"{found}, exceeding limit of {maxVariables}"] else []
  let planErrors := if a.plan.isTruthy then []
    else ["Function App requires an App Service Plan reference"]
  let accountErrors := if a.storageAccount.isTruthy then []
    else ["Function App requires a Storage Account reference"]
  let warnings := if a.sku = some "Y1" ∧ a.alwaysOn = some true then
    ["always_on is not available on Consumption plan (Y1)"] else []
  .ofTexts (runtimeErrors ++ versionErrors ++ countErrors ++ planErrors ++ accountErrors)
    warnings

-- =========================================================== the kind

/-- The id of the provider. -/
def providerId : String := "functions-provider"

/-- The configurations of Function Apps. -/
def model : Model App where
  id := providerId
  type := "functions"
  limit := maxFunctions
  read := App.ofEntries
  describe := App.describe
  write := App.write
  check := check
  canMerge := canMerge
  merge := merge

/-- Function Apps as a kind of resource. -/
def kind {σ : Type} : Kind σ App := .ofModel model

/-- The name that a component's variable has in a common app. The name of
a shared one is kept whatever it is. -/
def nameFor (componentId key : Value) : Except Fault Value := do
  let v ← (Variable.ofFields [("value", .str ""), ("component_id", componentId)]).toExcept
  match key with
  | .str key => return .str (settingName key v)
  | key =>
      let owner := v.owner.getD ""
      if owner = "" ∨ owner ∈ sharedOwners then return key else throw (key.lacks "upper")

/-- The settings of an app: its variables by name. -/
def settings (a : App) : List (String × String) :=
  (a.environment.getD []).map fun (k, v) => (k, v.value)

end Depot.Functions
