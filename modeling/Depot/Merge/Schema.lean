/-
Schemas for configuration values, and what checking a value against one
reports. A schema says which kind a value has, whether it may be absent,
and what holds of its parts; checks of single values can be attached at
every level. Issues come depth first, those of a value before those of
its parts, and each names the path to the value it is about.
-/
import Depot.Merge.Conflict
import Depot.Value.Keyed

namespace Depot.Merge

/-- A failed check at a path. -/
structure Issue where
  message : String
  path : Value
  source : Value := .null
  actual : Value := .null
  expected : Value := .null
  code : Option String := none
  deriving DecidableEq

/-- An issue as one line of text. -/
def Issue.text (i : Issue) : String := s!"{i.path.label}: {i.message}"

/-- The issue as a mapping. -/
def Issue.toFields (i : Issue) : Fields :=
  [("text", .str i.text), ("message", .str i.message), ("path", i.path), ("source", i.source),
    ("actual_value", i.actual), ("expected", i.expected), ("code", .ofText? i.code)]

/-- What a check found. -/
structure Findings where
  errors : List Issue := []
  warnings : List String := []
  deriving DecidableEq

namespace Findings

/-- Whether nothing is wrong. -/
def valid (f : Findings) : Bool := f.errors.isEmpty

/-- The findings as a mapping. -/
def toFields (f : Findings) : Fields :=
  [("valid", .bool f.valid), ("errors", .objects Issue.toFields f.errors),
    ("warnings", .texts f.warnings)]

/-- The findings of several checks in order. -/
def collect (all : List Findings) : Findings :=
  ⟨all.flatMap errors, all.flatMap warnings⟩

end Findings

/-- Where a checked value stands. -/
structure Place where
  path : Value
  source : Value
  config : Value := .object []

/-- A place in the same configuration. -/
def Place.at (place : Place) (path : String) : Place := { place with path := .str path }

/-- The finding of one issue. -/
def fail (message : String) (place : Place) (actual expected : Value) (code : String) : Findings :=
  ⟨[⟨message, place.path, place.source, actual, expected, some code⟩], []⟩

/-- A check of a single value. -/
abbrev FieldCheck := Value → Place → Except Fault Findings

mutual
/-- What is asked of a value: its shape, whether it has to be given, and
further checks. -/
inductive Schema where
  | of (shape : Shape) (required : Bool) (checks : List FieldCheck)
/-- What kind of value is asked for. -/
inductive Shape where
  | string
  | number
  | boolean
  /-- One of some values, of any kind. -/
  | choice (allowed : List Value)
  /-- A list, whose items may have a schema. -/
  | array (items : ItemSchema)
  /-- A mapping, some of whose entries have schemas. -/
  | object (properties : PropertySchemas)
  /-- A kind that no value is of. -/
  | unknown (name : String)
/-- What is asked of the items of a list. -/
inductive ItemSchema where
  | any
  | each (schema : Schema)
/-- What is asked of the entries of a mapping. -/
inductive PropertySchemas where
  | none
  | entry (key : String) (schema : Schema) (rest : PropertySchemas)
end

instance : Inhabited Schema := ⟨.of .string false []⟩

/-- The name of a shape. -/
def Shape.name : Shape → String
  | .string => "string"
  | .number => "number"
  | .boolean => "boolean"
  | .choice _ => "enum"
  | .array _ => "array"
  | .object _ => "object"
  | .unknown name => name

/-- Whether a value is of the kind that a shape names; one of some values
may be of any kind. -/
def Shape.fits : Shape → Value → Bool
  | .choice _, _ => true
  | .unknown _, _ => false
  | shape, v => v.kind = shape.name

/-- The findings about the shape of a given value, its parts aside. -/
def Shape.mismatch (shape : Shape) (v : Value) (place : Place) : Except Fault (List Findings) := do
  match shape with
  | .choice allowed =>
      if v.isAmong allowed then return []
      let list := ", ".intercalate (← allowed.mapM Value.display)
      return [fail "Value is not a valid enum value" place v (.str s!"One of: {list}")
        "INVALID_ENUM_VALUE"]
  | _ =>
      if shape.fits v then return []
      return [fail "Type mismatch" place v (.str s!"Type: {shape.name}") "TYPE_MISMATCH"]

/-- The findings about a value that is missing. -/
def missingValue (shape : Shape) (place : Place) : Findings :=
  ⟨[⟨"Required field is missing", place.path, place.source, .null,
    .str s!"Non-null value of type {shape.name}", some "REQUIRED_FIELD_MISSING"⟩], []⟩

mutual
/-- The findings about a value. -/
def Schema.check : Schema → FieldCheck
  | .of shape required checks, v, place => do
      if v.isNull then return if required then missingValue shape place else {}
      let whole ← shape.mismatch v place
      let parts ← shape.checkParts v place
      let further ← checks.mapM fun check => check v place
      return .collect (whole ++ parts ++ further)
/-- The findings about the parts of a value. -/
def Shape.checkParts : Shape → Value → Place → Except Fault (List Findings)
  | .array items, .list xs, place => items.checkItems xs place
  | .object properties, .object fs, place => properties.checkEntries fs place
  | _, _, _ => .ok []
/-- The findings about the items of a list. -/
def ItemSchema.checkItems : ItemSchema → List Value → Place → Except Fault (List Findings)
  | .any, _, _ => .ok []
  | .each schema, xs, place =>
      xs.zipIdx.mapM fun (v, i) => schema.check v (place.at s!"{place.path.label}[{i}]")
/-- The findings about the entries of a mapping. -/
def PropertySchemas.checkEntries :
    PropertySchemas → Fields → Place → Except Fault (List Findings)
  | .none, _, _ => .ok []
  | .entry key schema rest, fs, place => do
      let first ← schema.check (Fields.getD fs key) (place.at s!"{place.path.label}.{key}")
      return first :: (← rest.checkEntries fs place)
end

-- ================================================ whole configurations

/-- The schemas and checks of a configuration's paths. -/
structure Checks where
  schemas : Keyed Schema := []
  fields : Keyed (List FieldCheck) := []

namespace Checks

/-- Sets the schema of a path. -/
def withSchema (c : Checks) (path : Value) (schema : Schema) : Except Fault Checks := do
  return { c with schemas := c.schemas.put (← path.asName) schema }

/-- Adds a check of a path. -/
def withField (c : Checks) (path : Value) (check : FieldCheck) : Except Fault Checks := do
  let earlier := (← c.fields.find? path).getD []
  return { c with fields := c.fields.put path (earlier ++ [check]) }

/-- The findings about a configuration. A value that is absent is left to
its schema. -/
def check (c : Checks) (config : Value) (source : Value := .str "merged-config") :
    Except Fault Findings := do
  let bySchema ← c.schemas.mapM fun (path, schema) => do
    schema.check (← nestedAt config path) ⟨path, source, config⟩
  let byField ← c.fields.flatMapM fun (path, checks) => do
    let v ← nestedAt config path
    if v.isNull then pure []
    else checks.mapM fun check => check v ⟨path, source, config⟩
  return .collect (bySchema ++ byField)

end Checks

end Depot.Merge
