/-
The strategies for reconciling the values at one path. Lists are united
or intersected by the identity of their items; numbers give their
greatest or least; of arbitrary values the one with the highest priority
wins; mappings are merged key by key. Every strategy explains in
warnings what it dropped.

What a strategy asks of its context it asks only when it needs it: a
context that is shorter than the values is noticed at the first position
that is missing. Likewise a value that cannot be written is noticed where
it is compared or shown, and not before.
-/
import Depot.Merge.Outcome
import Depot.Value.Merge

namespace Depot.Merge

-- ============================================================= lists

/-- The items of a value in order, each after its identity. -/
def keyedItems (v : Value) : Except Fault (List (String × Value)) := do
  (← v.iterate).mapM fun item => do return (← item.key, item)

/-- The items of lists in order, each identity once. -/
def distinctItems (seen : List String) : List (String × Value) → List Value
  | [] => []
  | (key, v) :: items =>
      if key ∈ seen then distinctItems seen items
      else v :: distinctItems (key :: seen) items

/-- All items of the lists; the first occurrence of each stays. -/
def union : Handler := fun values ctx => do
  let items ← values.flatMapM keyedItems
  return ⟨.list (distinctItems [] items), .union, ctx.sources, []⟩

/-- The sources whose items lack an identity. -/
def lackingSources (ctx : Context) (key : String) (others : List (List String)) :
    Except Fault (List Value) :=
  (others.zipIdx.filter fun (keys, _) => key ∉ keys).mapM fun (_, i) => ctx.sourceAt (i + 1)

/-- The items that all other lists have, with a warning for each that is
left out. -/
def keepCommon (ctx : Context) (others : List (List String)) :
    List Value → Except Fault (List Value × List String)
  | [] => .ok ([], [])
  | v :: vs => do
      let key ← v.key
      match ← lackingSources ctx key others with
      | [] =>
          let (kept, warnings) ← keepCommon ctx others vs
          return (v :: kept, warnings)
      | lacking :: _ =>
          let holder ← (← ctx.sourceAt 0).display
          let what := s!"Value {key} from {holder} not present in {← lacking.display}"
          let (kept, warnings) ← keepCommon ctx others vs
          return (kept, s!"{what}, excluding from intersection at {ctx.path.label}" :: warnings)

/-- The items of the first list that every other list has. -/
def intersection : Handler := fun values ctx => do
  match values with
  | [] => return ⟨.list [], .intersection, [], []⟩
  | [only] => return ⟨.list (← only.iterate), .intersection, ctx.sources.take 1, []⟩
  | first :: rest =>
      let others ← rest.mapM fun v => do (← v.iterate).mapM Value.key
      let (kept, warnings) ← keepCommon ctx others (← first.iterate)
      let emptied ← if kept.isEmpty then do
          let names ← Value.joinTexts ", " ctx.sources
          pure [s!"Intersection at {ctx.path.label} resulted in empty list. Sources: {names}"]
        else pure []
      return ⟨.list kept, .intersection, ctx.sources, warnings ++ emptied⟩

-- =========================================================== numbers

/-- The position of the first value that no later one surpasses. -/
def extremeFrom (better : Value.Comparison) (best : Value) (bestAt next : Nat) :
    List Value → Except Fault Nat
  | [] => .ok bestAt
  | v :: vs => do
      if ← Value.compare better v best then extremeFrom better v next (next + 1) vs
      else extremeFrom better best bestAt (next + 1) vs

/-- The fault of choosing from nothing. -/
def nothingToSelect (ctx : Context) : Fault :=
  .badValue s!"Cannot select from empty values at {ctx.path.label}"

/-- The extreme one of the values. -/
def extreme (strategy : Strategy) (better : Value.Comparison) : Handler := fun values ctx => do
  match values with
  | [] => throw (nothingToSelect ctx)
  | first :: rest =>
      let at0 ← extremeFrom better first 0 1 rest
      let chosen := values.getD at0 first
      if rest.isEmpty then return ⟨chosen, strategy, [← ctx.sourceAt at0], []⟩
      let others ← (values.eraseIdx at0).mapM Value.display
      let shown ← chosen.display
      let source ← ctx.sourceAt at0
      let head := s!"Selected {strategy.name} value {shown} from {← source.display}"
      let tail := ", ".intercalate others
      return ⟨chosen, strategy, [source], [s!"{head} at {ctx.path.label}. Other values: {tail}"]⟩

/-- The greatest value. -/
def maximum : Handler := extreme .maximum .above

/-- The least value. -/
def minimum : Handler := extreme .minimum .below

-- ========================================================== priority

/-- Whether one of the values at some positions differs from an
identity. -/
def anyDiffers (values : List Value) (key : String) : List Nat → Except Fault Bool
  | [] => .ok false
  | i :: is => do
      if (← (← Value.itemAt values i).key) ≠ key then return true
      else anyDiffers values key is

/-- The positions of lower priorities whose values differ from an
identity. -/
def overridden (values : List Value) (key : String) (top : Value) :
    List (Value × Nat) → Except Fault (List Nat)
  | [] => .ok []
  | (p, i) :: rest => do
      let lower ← Value.compare .below p top
      let differs ← if lower then anyDiffers values key [i] else pure false
      let others ← overridden values key top rest
      return if differs then i :: others else others

/-- What is said if values of the highest priority differ. -/
def tieWarnings (values : List Value) (ctx : Context) (key : String) (top : Value) (winner : Nat) :
    Except Fault (List String) := do
  let tied := (ctx.priorities.zipIdx.filter fun (p, _) => p.same top).map Prod.snd
  if tied.length < 2 then return []
  if !(← anyDiffers values key tied) then return []
  let what := s!"Multiple sources with priority {← top.display} have different values"
  let source ← (← ctx.sourceAt winner).display
  let names ← Value.joinTexts ", " (← tied.mapM ctx.sourceAt)
  let use := s!"Using value from {source}. Conflicting sources: {names}"
  return [s!"Conflict at {ctx.path.label}: {what}. {use}"]

/-- What is said if values of lower priorities are lost. -/
def lossWarnings (values : List Value) (ctx : Context) (key : String) (top : Value) (winner : Nat) :
    Except Fault (List String) := do
  let lost ← overridden values key top ctx.priorities.zipIdx
  if lost.isEmpty then return []
  let source ← (← ctx.sourceAt winner).display
  let who := s!"Value from {source} (priority {← top.display}) overriding"
  return [s!"{who} {lost.length} lower priority value(s) at {ctx.path.label}"]

/-- The value of the highest priority, of several the earliest. -/
def priority : Handler := fun values ctx => do
  match values with
  | [] => throw (nothingToSelect ctx)
  | [only] => return ⟨only, .priority, ctx.sources.take 1, []⟩
  | _ =>
      let top ← Value.greatest ctx.priorities
      let winner := ctx.priorities.findIdx fun p => p.same top
      let chosen ← Value.itemAt values winner
      let key ← chosen.key
      let ties ← tieWarnings values ctx key top winner
      let losses ← lossWarnings values ctx key top winner
      return ⟨chosen, .priority, [← ctx.sourceAt winner], ties ++ losses⟩

-- ========================================================== mappings

/-- The values as mappings. Values without any item count as empty
mappings; any other that is not a mapping is refused, once every value
has been walked. -/
def asMappings (values : List Value) : Except Fault (List Fields) := do
  let items ← values.flatMapM fun v => do
    let items ← v.iterate
    match items.find? fun key => !key.canName with
    | some key => throw key.cannotName
    | none => return items
  if items.isEmpty then return values.map fun _ => []
  values.mapM (Value.entriesOf "get")

/-- The keys of the mappings in the order of their first use. -/
def allKeys (objects : List Fields) : List String := (objects.flatMap Fields.keys).eraseDups

/-- The values that are given for a key, with their positions. -/
def given (objects : List Fields) (key : String) : List (Value × Nat) :=
  (objects.zipIdx.map fun (fs, i) => (Fields.getD fs key, i)).filter fun (v, _) => !v.isNull

/-- Sources without those that are there already. -/
def addSources (known new : List Value) : Except Fault (List Value) :=
  new.foldlM (fun acc s =>
    if !s.canName then .error s.cannotName
    else .ok (if s.isAmong acc then acc else acc ++ [s])) known

/-- The warning about a property that could not be merged. -/
def droppedProperty (path : Value) (fault : Fault) : String :=
  s!"Failed to merge property {path.label}: {fault.reason}"

/-- The entries that the mappings give together. A key whose handler
fails is left out with a warning; a key whose sources cannot be told
apart ends the merge. -/
def mergeKeys (handlerOf : Value → String → Handler) (objects : List Fields) (ctx : Context) :
    List String → Except Fault (Fields × List Value × List String)
  | [] => .ok ([], [], [])
  | key :: keys => do
      let path := ctx.below key
      let present := given objects key
      let here : Option (Value × List Value) × List String ←
        match present with
        | [] => pure (none, [])
        | [(v, i)] => do pure (some (v, [← ctx.sourceAt i]), [])
        | _ => do
            let below ← ctx.narrow path (present.map Prod.snd)
            match handlerOf path key (present.map Prod.fst) below with
            | .ok outcome => pure (some (outcome.value, outcome.sources), outcome.warnings)
            | .error fault =>
                if fault.isDroppable then pure (none, [droppedProperty path fault])
                else throw fault
      let used := (here.1.map Prod.snd).getD []
      discard (addSources [] used)
      let (entries, sources, warnings) ← mergeKeys handlerOf objects ctx keys
      let entry := (here.1.map fun (v, _) => (key, v)).toList
      return (entry ++ entries, used ++ sources, here.2 ++ warnings)

/-- Mappings merged key by key, each key by the handler of its path, else
of its name, else by priority. -/
def object (handlers : List (String × Handler)) : Handler := fun values ctx => do
  match values with
  | [] => throw (.badValue s!"Cannot merge empty object list at {ctx.path.label}")
  | [only] => return ⟨.object (← only.toFields), .custom, ctx.sources.take 1, []⟩
  | _ =>
      let objects ← asMappings values
      let handlerOf := fun path key =>
        ((handlers.lookup path.label).orElse fun _ => handlers.lookup s!"*.{key}").getD priority
      let (entries, sources, warnings) ← mergeKeys handlerOf objects ctx (allKeys objects)
      return ⟨.object entries, .custom, ← addSources [] sources, warnings⟩

/-- The handler of a strategy; a custom strategy without one merges
mappings. -/
def Strategy.handler : Strategy → Handler
  | .union => Merge.union
  | .intersection => Merge.intersection
  | .maximum => Merge.maximum
  | .minimum => Merge.minimum
  | .priority => Merge.priority
  | .custom => object []

end Depot.Merge
