/-
Mergers described by plain data: which strategies apply where, which
combinations are forbidden, and what is checked. Handlers are referred
to by name, and the caller says what a name stands for.

What a description leaves out has its usual meaning. A part that is not
of the kind asked for is refused where it is used.
-/
import Depot.Merge.Configuration
import Depot.Merge.FieldCheck

namespace Depot.Merge

/-- The pattern that a value writes; only a text writes one. -/
def patternOf : Value → Except Fault Text.Matcher
  | .str text => match Text.Pattern.ofText? text with
      | some p => .ok p.matcher
      | none => .error (.system "error" s!"{text} is no pattern")
  | _ => .error (.badType "first argument must be string or compiled pattern")

/-- The entries of the mapping under a key; none if the key is missing. -/
def mappingAt (v : Value) (key : String) : Except Fault Fields :=
  (v.fieldOr key (.object [])).entriesOf "items"

-- ============================================================ checks

/-- The check that a mapping describes. A check asks for its own number of
arguments, of which only those of a resource name may be left out. -/
def FieldCheck.ofValue (v : Value) : Except Fault FieldCheck := do
  match (v.field "kind").label, ← v.walkAt "args" with
  | "storage_account_name", [] => return storageAccountName
  | "number_range", [low, high] => return numberRange low high
  | "array_length", [low, high] => return arrayLength low high
  | "pattern", [regex, description] => return pattern (← patternOf regex) description
  | "warn", _ => return note (v.fieldOr "text" (.str ""))
  | "resource_name", [] => return resourceName
  | "resource_name", [low] => return resourceName low
  | "resource_name", [low, high] => return resourceName low high
  | kind, _ => throw (.badType s!"{kind}() was given other arguments than it takes")

/-- The schema that a mapping describes, looking into at most `n` levels of
it. -/
def Schema.within : Nat → Value → Except Fault Schema
  | 0, _ => .ok default
  | n + 1, v => do
      let shape : Shape ← match (v.field "type").label with
        | "string" => pure .string
        | "number" => pure .number
        | "boolean" => pure .boolean
        | "enum" => do pure (.choice (← v.walkAt "enum"))
        | "array" =>
            match v.field "items" with
            | .null => pure (.array .any)
            | items => do pure (.array (.each (← within n items)))
        | "object" => do
            let properties := (v.field "properties").orElse (.object [])
            pure (.object (← (← properties.entriesOf "items").foldrM
              (fun (key, s) rest => do return .entry key (← within n s) rest) .none))
        | name => pure (.unknown name)
      let checks ← (← v.walkAt "validators").mapM FieldCheck.ofValue
      return .of shape (v.field "required").isTruthy checks

/-- The schema that a mapping describes. -/
def Schema.ofValue (v : Value) : Except Fault Schema := within v.depth v

/-- The checks of paths that have schemas and further checks. -/
def Checks.ofLists (schemas fields : List (Value × Value)) : Except Fault Checks := do
  let bySchema ← schemas.foldlM (fun c (path, v) => do
    c.withSchema path (← Schema.ofValue v)) ({} : Checks)
  fields.foldlM (fun c (path, v) => do
    c.withField path (← FieldCheck.ofValue v)) bySchema

-- =========================================================== mergers

/-- Whether every listed path of a configuration has the value listed for
it. -/
def allHold (config : Value) : List Value → Except Fault Bool
  | [] => .ok true
  | condition :: rest => do
      let (path, wanted) ← condition.asPair
      if (← nestedAt config path).same wanted then allHold config rest else return false

/-- The rule that a mapping describes: it holds when every listed path has
the value listed for it. -/
def Rule.ofValue (v : Value) : Except Fault Rule := do
  let conditions ← v.walkAt "when"
  return {
    path := v.fieldOr "path" (.str "")
    paths := ← v.walkAt "paths"
    holds config := allHold config conditions
    reason := v.fieldOr "reason" (.str "")
    suggestion := v.field "suggestion" }

/-- The custom strategy that a mapping describes. -/
def Custom.ofValue (handlerOf : Value → Except Fault Handler) (v : Value) :
    Except Fault Custom := do
  let target ← match v.given "regex" patternOf, v.fieldOr "path" (.str "") with
    | some pattern, _ => Target.pattern <$> pattern
    | none, .str path => pure (.path path)
    | none, path => throw (path.lacks "pattern")
  return ⟨target, ← handlerOf (v.field "handler"), v.field "description"⟩

/-- The merger that a mapping describes. -/
def Merger.ofValue (handlerOf : Value → Except Fault Handler) (v : Value) :
    Except Fault Merger := do
  let paths := fun (key : String) => do
    return (← mappingAt v key).map fun (path, spec) => (Value.str path, spec)
  return {
    default := ← Strategy.ofValue (v.fieldOr "default_strategy" (.str "priority"))
    strict := (v.field "strict").isTruthy
    tracing := (v.field "tracing").isTruthy
    customs := .ofList (← (← v.walkAt "custom").mapM (Custom.ofValue handlerOf))
    rules := ← (← v.walkAt "rules").mapM Rule.ofValue
    checks := ← Checks.ofLists (← paths "schemas") (← paths "validators") }

end Depot.Merge
