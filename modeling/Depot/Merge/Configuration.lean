/-
Merging whole configurations of one resource, path by path. Where every
configuration that has a path holds a mapping there, the merge goes on
key by key; any other path is settled by a strategy: a custom one for
the path, else one that the name of its last key suggests, else the
merger's default. The merged configuration is then held against rules
and checks, and a strict merger refuses it if anything is wrong.

A merge keeps a ledger. What the ledger holds stays when the merge fails
further on, and a path whose merge failed is left out with a warning.
-/
import Depot.Journal
import Depot.Merge.Registry
import Depot.Merge.Schema
import Depot.Merge.Strategy
import Depot.Requirement.Basic

namespace Depot.Merge

/-- How one path was settled. -/
structure Trace where
  path : Value
  strategy : Strategy
  inputs : List Contribution
  output : Value
  warnings : List String
  deriving DecidableEq

/-- The trace as a mapping. -/
def Trace.toFields (t : Trace) : Fields :=
  [("path", t.path), ("strategy", .str t.strategy.name),
    ("inputs", .list (t.inputs.map Contribution.toValue)), ("output", t.output),
    ("warnings", .texts t.warnings)]

/-- A merged configuration with everything that was noticed. -/
structure Merged where
  config : Fields
  conflicts : List Conflict := []
  unresolvable : List Conflict := []
  errors : List Issue := []
  warnings : List String := []
  trace : Option (List Trace) := none
  deriving DecidableEq

/-- Whether nothing stands against the merged configuration. -/
def Merged.success (m : Merged) : Bool := m.unresolvable.isEmpty && m.errors.isEmpty

/-- The merged configuration as a mapping, with its keys in order. -/
def Merged.toFields (m : Merged) : Fields :=
  [("config", .object m.config), ("keys", .texts (Fields.keys m.config)),
    ("success", .bool m.success), ("conflicts", .objects Conflict.toFields m.conflicts),
    ("unresolvable", .objects Conflict.toFields m.unresolvable),
    ("errors", .objects Issue.toFields m.errors), ("warnings", .texts m.warnings),
    ("trace", .ofOption (Value.objects Trace.toFields) m.trace)]

/-- How configurations are merged. -/
structure Merger where
  default : Strategy := .priority
  strict : Bool := false
  tracing : Bool := false
  customs : Registry := {}
  rules : List Rule := []
  checks : Checks := {}

/-- What a merge notes down. -/
structure Ledger where
  conflicts : List Conflict := []
  warnings : List String := []
  traces : List Trace := []

/-- A step of a merge. -/
abbrev Step := ExceptT Fault (StateM Ledger)

namespace Step

/-- A result that needs no ledger. -/
def ofExcept {α : Type} (r : Except Fault α) : Step α := ExceptT.mk (pure r)

/-- Notes conflicts. -/
def noteConflicts (new : List Conflict) : Step Unit :=
  modify fun l => { l with conflicts := l.conflicts ++ new }

/-- Notes warnings. -/
def noteWarnings (new : List String) : Step Unit :=
  modify fun l => { l with warnings := l.warnings ++ new }

/-- Notes how a path was settled. -/
def noteTrace (new : Trace) : Step Unit :=
  modify fun l => { l with traces := l.traces ++ [new] }

/-- The step, or nothing where it fails in a way that costs only its own
path. What the step noted stays. -/
def orDropped {α : Type} (path : Value) (step : Step α) : Step (Option α) :=
  ExceptT.mk do
    match ← step.run with
    | .ok a => return .ok (some a)
    | .error fault =>
        if fault.isDroppable then do
          modify fun l => { l with warnings := l.warnings ++ [droppedProperty path fault] }
          return .ok none
        else return .error fault

end Step

-- ========================================================= strategies

/-- The path of all configurations. -/
def rootPath : Value := .str "config"

/-- What the name of a key suggests about its values. -/
def suggestions : List (Strategy × List String) := [
  (.union, ["environment_variables", "tags", "capabilities"]),
  (.maximum, ["memory", "throughput", "size", "retention"]),
  (.intersection, ["required", "common"])]

/-- The strategy that a key suggests. -/
def suggested? (key : List Char) : Option Strategy :=
  (suggestions.find? fun (_, marks) => marks.any fun m => Text.occursIn m.toList key).map Prod.fst

namespace Merger

/-- The strategy for a path. -/
def strategyFor (m : Merger) (path : String) : Strategy :=
  if (m.customs.find path).isSome then .custom
  else (suggested? (Text.lastPiece '.' path.toList)).getD m.default

/-- The strategy for a path that may be no text. -/
def strategyOf (m : Merger) (path : Value) : Except Fault Strategy := do
  match ← m.customs.findFor path, path with
  | some _, _ => return .custom
  | none, .str path => return m.strategyFor path
  | none, v => throw (v.lacks "rsplit")

/-- The strategy applied to values that are not all mappings. A strategy
that does not fit the values gives way to priority. -/
def applyStrategy (m : Merger) (values : List Value) (ctx : Context) : Step Outcome := do
  let strategy := m.strategyFor ctx.path.label
  let allLists := values.all fun v => v.items?.isSome
  let allNumbers := values.all Value.isNumber
  match strategy, allLists, allNumbers with
  | .union, true, _ => Step.ofExcept (union values ctx)
  | .intersection, true, _ => Step.ofExcept (intersection values ctx)
  | .maximum, _, true => Step.ofExcept (maximum values ctx)
  | .minimum, _, true => Step.ofExcept (minimum values ctx)
  | _, _, _ => do
      if strategy ≠ .priority ∧ strategy ≠ .custom then
        let what := s!"{strategy.name} strategy does not apply to values at {ctx.path.label}"
        Step.noteWarnings [s!"{what}; using priority"]
      Step.noteConflicts (← Step.ofExcept (valueConflicts values ctx))
      Step.ofExcept (priority values ctx)

/-- Notes an outcome and gives its value. -/
def settle (m : Merger) (values : List Value) (ctx : Context) (outcome : Outcome) :
    Step Value := do
  Step.noteWarnings outcome.warnings
  if m.tracing then
    let inputs ← Step.ofExcept (contributions values.zipIdx ctx)
    Step.noteTrace ⟨ctx.path, outcome.strategy, inputs, outcome.value, outcome.warnings⟩
  return outcome.value

-- ========================================================= the merge

/-- The entries that mappings give together for some keys. `mergeOne`
merges the values of a key that several of them give. -/
def mergeEntries (mergeOne : List Value → Context → Step Value) (objects : List Fields)
    (ctx : Context) : List String → Step Fields
  | [] => return []
  | key :: keys => do
      let path := ctx.below key
      let here ← match given objects key with
        | [] => pure none
        | [(v, _)] => pure (some v)
        | present => Step.orDropped path do
            let below ← Step.ofExcept (ctx.narrow path (present.map Prod.snd))
            mergeOne (present.map Prod.fst) below
      let rest ← mergeEntries mergeOne objects ctx keys
      return match here with
        | some v => (key, v) :: rest
        | none => rest

/-- The values at one path settled without looking into them. -/
def settleByStrategy (m : Merger) (values : List Value) (ctx : Context) : Step Value := do
  Step.noteConflicts (← Step.ofExcept (typeConflicts values ctx))
  m.settle values ctx (← m.applyStrategy values ctx)

/-- The values at one path merged. `n` bounds the depth of the values. -/
def mergeValues (m : Merger) : Nat → List Value → Context → Step Value
  | n, values, ctx =>
      match m.customs.find ctx.path.label with
      | some custom => do m.settle values ctx (← Step.ofExcept (custom.handler values ctx))
      | none =>
          match n, values.mapM Value.fields? with
          | n + 1, some objects => do
              return .object (← mergeEntries (mergeValues m n) objects ctx (allKeys objects))
          | _, _ => m.settleByStrategy values ctx

/-- The configurations merged, before rules and checks. -/
def mergeAll (m : Merger) (configs : List Value) (ctx : Context) : Step Fields := do
  let objects ← Step.ofExcept (asMappings configs)
  let n := (configs.map Value.depth).foldl max 0
  mergeEntries (m.mergeValues n) objects ctx (allKeys objects)

end Merger

-- ============================================================ failure

/-- The value in a line of a report. -/
def Contribution.line (c : Contribution) : Except Fault String := do
  return s!"    {← c.source.display}: {← c.value.quoted}"

/-- The conflict in the lines of a report. -/
def Conflict.lines (c : Conflict) : Except Fault (List String) := do
  let head := s!"  - {← c.path.display}: {← c.reason.display}"
  return head :: (← c.values.mapM Contribution.line)

/-- The value that an issue is about in the lines of a report. -/
def Issue.actualLines (i : Issue) : Except Fault (List String) := do
  if i.actual.isNull then return []
  return [s!"    Actual: {← i.actual.quoted}"]

/-- What was expected in its place. -/
def Issue.expectedLines (i : Issue) : Except Fault (List String) := do
  if !i.expected.isTruthy then return []
  return [s!"    Expected: {← i.expected.display}"]

/-- The issue in the lines of a report. -/
def Issue.lines (i : Issue) : Except Fault (List String) := do
  let head := s!"  - {← i.path.display}: {i.message}"
  let actual ← i.actualLines
  return head :: actual ++ (← i.expectedLines)

/-- The part of a report that is about some items, if there are any. -/
def reportLines {α : Type} (title : String) (lines : α → Except Fault (List String))
    (items : List α) : Except Fault (List String) := do
  if items.isEmpty then return []
  return title :: (← items.flatMapM lines)

/-- Why a merged configuration cannot be used. -/
def failureText (conflicts : List Conflict) (errors : List Issue) : Except Fault String := do
  let conflictLines ← reportLines "Unresolvable Conflicts:" Conflict.lines conflicts
  let errorLines ← reportLines "Validation Errors:" Issue.lines errors
  return "\n".intercalate (conflictLines ++ errorLines)

/-- The fault of a strict merge: the failure with all that is wrong, unless
that cannot be written. -/
def Merged.failure (result : Merged) (configs : List Value) : Fault :=
  match failureText result.unresolvable result.errors with
  | .error fault => fault
  | .ok text => .merge ("Configuration merge failed:\n" ++ text) configs
      [("conflicts", .list (result.unresolvable.map Conflict.path)),
        ("errors", .texts (result.errors.map Issue.text))]

-- ============================================================== a run

/-- A merge that is asked for: configurations, where they came from and how
much they count. -/
structure Call where
  configs : List Fields
  sources : List String := []
  priorities : List Int := []

/-- A merge that was run: its result, how its paths were settled, and
what it reported. -/
structure Run where
  result : Except Fault Merged
  traces : List Trace := []
  journal : Journal := []

namespace Merger

/-- The context of whole configurations. Without sources or priorities
they are numbered, and all count the same. -/
def rootContext (count : Nat) (sources priorities : List Value) : Context :=
  let numbered := (List.range count).map fun i => .str s!"source-{i}"
  let equal := List.replicate count (.int defaultPriority)
  ⟨rootPath, if sources.isEmpty then numbered else sources,
    if priorities.isEmpty then equal else priorities⟩

/-- What a merge comes to once its paths are settled: the configuration is
held against the rules and checks, and the ledger is handed over. -/
def conclude (m : Merger) (configs : List Value) (ctx : Context) (merged : Except Fault Fields)
    (ledger : Ledger) : Run :=
  let traces := if m.tracing then ledger.traces else []
  let checked : Except Fault (Merged × Nat) := do
    let config ← merged
    let conflicts := ledger.conflicts ++ (← incompatibilities (.object config) m.rules)
    let findings ← m.checks.check (.object config)
    return (⟨config, conflicts.filter Conflict.resolvable,
      conflicts.filter fun c => !c.resolvable, findings.errors,
      ledger.warnings ++ findings.warnings, if m.tracing then some traces else none⟩,
      conflicts.length)
  match checked with
  | .error fault => ⟨.error fault, traces, []⟩
  | .ok (result, count) =>
      let event : Event := ⟨.debug, "configuration_merged",
        [("sources", .list ctx.sources), ("conflicts", .int count),
          ("errors", .int result.errors.length), ("warnings", .int result.warnings.length)]⟩
      let outcome := if m.strict && !result.success then .error (result.failure configs)
        else .ok result
      ⟨outcome, traces, [event]⟩

/-- The configurations merged and held against the rules and checks. -/
def mergeConfigs (m : Merger) (configs : List Value) (sources : List Value := [])
    (priorities : List Value := []) : Run :=
  let ctx := rootContext configs.length sources priorities
  let (merged, ledger) := (m.mergeAll configs ctx).run {}
  m.conclude configs ctx merged ledger

/-- The configurations merged that come as one value, with sources and
priorities that may be missing. -/
def mergeOffered (m : Merger) (configs : Value) (sources priorities : Value := .null) : Run :=
  let items := fun (v : Value) => (v.orElse (.list [])).iterate
  match configs.iterate, items sources, items priorities with
  | .ok configs, .ok sources, .ok priorities => m.mergeConfigs configs sources priorities
  | .error fault, _, _ | _, .error fault, _ | _, _, .error fault => ⟨.error fault, [], []⟩

/-- The configurations of requirements merged; fewer than two need no
merge, and leave the traces of an earlier run in place. -/
def mergeRequirements (m : Merger) (requirements : List Requirement) (earlier : List Trace := []) :
    Run :=
  match requirements with
  | [] => ⟨.ok { config := [] }, earlier, []⟩
  | [only] => ⟨.ok { config := only.config }, earlier, []⟩
  | _ =>
      match requirements.mapM Requirement.sourceName with
      | .error fault => ⟨.error fault, earlier, []⟩
      | .ok sources =>
          m.mergeConfigs (requirements.map fun r => .object r.config) sources
            (requirements.map Requirement.effectivePriority)

-- ============================================================ a series

end Merger

end Depot.Merge
