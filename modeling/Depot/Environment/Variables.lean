/-
The environment variables that requirements ask for, gathered under
names that say which component each belongs to. When two requests give
one name different values the later one stays, and the journal says so, with
both values.
-/
import Depot.Environment.Name
import Depot.Journal
import Depot.Requirement.Basic
import Depot.Value.Writing

namespace Depot.Environment

/-- Variables gathered so far, and what they disagreed about. -/
structure Gathered where
  entries : Fields := []
  conflicts : List String := []

/-- What is said of a value for a name that has another one. -/
def Gathered.clash (g : Gathered) (name : String) (new : Value) : Except Fault (List String) := do
  match Fields.get? g.entries name with
  | none => return []
  | some old =>
      if old.same new then return []
      return [s!"Conflict for {name}: {← old.display} vs {← new.display}"]

/-- One more variable of a component. -/
def Gathered.add (componentId : Value) (g : Gathered) (entry : String × Value) :
    Except Fault Gathered := do
  let name ← splitNameOf componentId (.str entry.1)
  let conflicts ← g.clash name entry.2
  return ⟨Fields.put g.entries name entry.2, g.conflicts ++ conflicts⟩

/-- All variables of one more requirement. -/
def Gathered.addAll (g : Gathered) (r : Requirement) : Except Fault Gathered := do
  let entries ← ((Fields.getD r.config "environment_variables").orElse (.object [])).entriesOf
    "items"
  let componentId ← r.sourceName
  entries.foldlM (Gathered.add componentId) g

/-- The variables of all requirements, and what the journal says about
them. -/
def gather (requirements : List Requirement) : Except Fault (Fields × Journal) := do
  let g ← requirements.foldlM Gathered.addAll {}
  let event : Event :=
    ⟨.warning, "environment_variable_conflicts", [("conflicts", .texts g.conflicts)]⟩
  return (g.entries, if g.conflicts.isEmpty then [] else [event])

end Depot.Environment
