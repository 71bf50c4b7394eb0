/-
Plans: what a backend would provision, learnt without provisioning
anything. A plan holds the merged requirements with the components that
asked for them, and whatever would stand in the way.
-/
import Depot.Requirement.Grouping
import Depot.Requirement.Request
import Depot.Table

namespace Depot

/-- The phases of an initialisation. -/
inductive Phase where
  | collect
  | validate
  | merge
  | provision
  | initializeComponents
  deriving DecidableEq

/-- The name of a phase. -/
def Phase.name : Phase → String
  | .collect => "collect"
  | .validate => "validate"
  | .merge => "merge"
  | .provision => "provision"
  | .initializeComponents => "initialize-components"

/-- A phase at the beginning of a sentence. -/
def Phase.title : Phase → String
  | .collect => "Collect"
  | .validate => "Validate"
  | .merge => "Merge"
  | .provision => "Provision"
  | .initializeComponents => "Initialize-components"

/-- What a backend would provision. -/
structure Plan (σ : Type) where
  backendId : Value
  requirements : Table (Request σ) := []
  sources : Table (List Value) := []
  missing : List Value := []
  errors : List String := []
  warnings : List Value := []

namespace Plan

variable {σ : Type}

/-- Records a merged requirement and who asked for it. -/
def record (p : Plan σ) (r : Request σ) (sources : List Value) : Plan σ :=
  { p with
    requirements := Table.put r.resourceKey r p.requirements
    sources := Table.put r.resourceKey sources p.sources }

/-- Records what went wrong in a phase. -/
def recordError (p : Plan σ) (phase : Phase) (what : String) : Plan σ :=
  { p with errors := p.errors ++ [s!"{phase.title} failed: {what}"] }

/-- How many resources there would be. -/
def total (p : Plan σ) : Nat := p.requirements.length

/-- How many resources of each type there would be. -/
def countByType (p : Plan σ) : Except Fault (List (Value × Nat)) := do
  let groups ← Requirement.groupByType Request.toRequirement (p.requirements.map Prod.snd)
  return groups.map fun (type, rs) => (type, rs.length)

/-- Whether nothing stands in the way. -/
def success (p : Plan σ) : Bool := p.errors.isEmpty && p.missing.isEmpty

/-- The plan as a mapping. Requirements and sources are lists of pairs, for
their order tells what would be made first. -/
def toFields (p : Plan σ) : Except Fault Fields := do
  let requirements ← p.requirements.mapM fun (key, r) =>
    do return Value.list [.str key, .object (← r.toFields)]
  let counts := (← p.countByType).map fun (type, n) => (type.text?.getD type.wire, Value.int n)
  return [("backend_id", p.backendId), ("requirements", .list requirements),
    ("sources", .pairs .list p.sources),
    ("missing_types", .list p.missing), ("errors", .texts p.errors),
    ("warnings", .list p.warnings), ("total", .int p.total), ("by_type", .object counts),
    ("success", .bool p.success)]

end Plan

end Depot
