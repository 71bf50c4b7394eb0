/-
Conflicts between the configurations of one resource: values that
differ, types that differ, and combinations that a rule forbids. A
difference between values is resolvable unless all of them have the same
priority; the other conflicts are never resolvable.
-/
import Depot.Merge.Outcome
import Depot.Text.Basic

namespace Depot.Merge

/-- The kinds of conflicts. -/
inductive ConflictKind where
  | value
  | type
  | incompatible
  deriving DecidableEq

/-- The name of a kind of conflict. -/
def ConflictKind.name : ConflictKind → String
  | .value => "value"
  | .type => "type"
  | .incompatible => "incompatible"

/-- A value with its origin. -/
structure Contribution where
  value : Value
  source : Value
  priority : Value
  deriving DecidableEq

/-- A conflict at a path. -/
structure Conflict where
  path : Value
  values : List Contribution
  kind : ConflictKind
  resolvable : Bool
  reason : Value
  suggestion : Value
  deriving DecidableEq

/-- The value with its origin, as a list. -/
def Contribution.toValue (c : Contribution) : Value := .list [c.value, c.source, c.priority]

/-- The conflict as a mapping. -/
def Conflict.toFields (c : Conflict) : Fields :=
  [("path", c.path), ("values", .list (c.values.map Contribution.toValue)),
    ("conflict_type", .str c.kind.name), ("resolvable", .bool c.resolvable),
    ("reason", c.reason), ("suggested_strategy", c.suggestion)]

/-- A condition on the merged configuration that makes it unusable. -/
structure Rule where
  path : Value
  paths : List Value
  holds : Value → Except Fault Bool
  reason : Value
  suggestion : Value := .null

/-- The value at a dotted path; null where the path leaves the
mappings. -/
def nestedValue (config : Value) (path : String) : Value :=
  (cutString '.' path).foldl Value.field config

/-- The value at a path that has to be a text. -/
def nestedAt (config : Value) : Value → Except Fault Value
  | .str path => .ok (nestedValue config path)
  | v => .error (v.lacks "split")

/-- The values with their origins. -/
def contributions (values : List (Value × Nat)) (ctx : Context) :
    Except Fault (List Contribution) :=
  values.mapM fun (v, i) => do return ⟨v, ← ctx.sourceAt i, ← ctx.priorityAt i⟩

/-- Items of which no two are equal. -/
def distinctValues : List Value → Except Fault (List Value)
  | [] => .ok []
  | v :: vs => do
      if !v.canName then throw v.cannotName
      let rest ← distinctValues vs
      return v :: rest.filter fun w => !w.same v

/-- The conflict of values that differ, if they do. -/
def valueConflicts (values : List Value) (ctx : Context) : Except Fault (List Conflict) := do
  let entries ← contributions (values.zipIdx.filter fun (v, _) => !v.isNull) ctx
  match entries with
  | [] => return []
  | first :: _ =>
      let keys ← entries.mapM fun e => e.value.key
      if keys.eraseDups.length < 2 then return []
      let tied := (← distinctValues (entries.map Contribution.priority)).length = 1
      let reason ← if tied then do
          let priority ← first.priority.display
          pure s!"Multiple sources with same priority ({priority}) have different values"
        else pure "Values differ but can be resolved by priority"
      let suggestion := if tied then "manual-resolution" else "priority"
      return [⟨ctx.path, entries, .value, !tied, .str reason, .str suggestion⟩]

/-- The conflict of values of several kinds, if there are several. -/
def typeConflicts (values : List Value) (ctx : Context) : Except Fault (List Conflict) := do
  let kinds := ((values.filter fun v => !v.isNull).map Value.kind).eraseDups
  if kinds.length < 2 then return []
  let entries ← contributions values.zipIdx ctx
  let names := ", ".intercalate kinds
  return [⟨ctx.path, entries, .type, false, .str s!"Incompatible types: {names}",
    .str "manual-resolution"⟩]

/-- The conflict that a rule finds in a configuration, if it does. -/
def Rule.conflict? (rule : Rule) (config : Value) : Except Fault (Option Conflict) := do
  if !(← rule.holds config) then return none
  let values ← rule.paths.mapM fun path => do
    return ⟨← nestedAt config path, .str "merged-config", .int 0⟩
  return some ⟨rule.path, values, .incompatible, false, rule.reason, rule.suggestion⟩

/-- The conflicts that rules find in a configuration. -/
def incompatibilities (config : Value) (rules : List Rule) : Except Fault (List Conflict) :=
  rules.filterMapM fun rule => rule.conflict? config

end Depot.Merge
