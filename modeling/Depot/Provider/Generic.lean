/-
Providers for resource types without a configuration model. Their
configurations stay plain mappings and are merged path by path, strictly
unless asked otherwise, so that a conflict that cannot be resolved fails
the merge. How a resource is made and what is checked beforehand may be
supplied.
-/
import Depot.Merge.Configuration
import Depot.Provider.Kind

namespace Depot.Generic

/-- What makes up a provider of plain configurations. -/
structure Setup (σ : Type) where
  id : Value
  types : List Value
  merger : Merge.Merger := { strict := true }
  limit : Value := .null
  check : Option (Fields → Except Fault Verdict) := none
  make : Option (String → Fields → Provisioning → SiteWork σ Resource) := none

variable {σ : Type}

/-- The configuration of a finished merge. -/
def ofRun (run : Merge.Run) : Except Fault Fields × Journal :=
  (run.result.map Merge.Merged.config, run.journal)

/-- The resource type that the provider stands for: the first. -/
def Setup.type (s : Setup σ) : Value := s.types.headD (.str "")

/-- Plain configurations merged, without sources or priorities. -/
def Setup.mergeConfigs (s : Setup σ) (configs : Value) : Except Fault Fields × Journal :=
  ofRun (s.merger.mergeOffered configs)

/-- Plain configurations as a kind of resource. -/
def Setup.kind (s : Setup σ) : Kind σ Fields where
  id := s.id
  type := s.type
  types := s.types
  limit := s.limit
  read fs := .ok fs
  write fs := fs
  check fs := match s.check with
    | some check => check fs
    | none => .ok .ok
  mergeGroup rs := ofRun (s.merger.mergeRequirements rs)
  make := s.make.getD (Kind.handle s.type fun fs => fs)

end Depot.Generic
