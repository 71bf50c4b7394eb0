/-
What a schema finds. A schema speaks about a value and about parts of it,
which are again values with schemas: the items of a list, and under every
key that has a schema what a mapping has there, null if it has nothing
(`Schema.parts`). Everything in this file goes by this one view: an induction
on schemas has a case for a schema whose parts are known (`Schema.induction`),
and a check is a finding about the value itself, then the findings about its
parts, then its further checks (`Schema.check_eq`).

The places that a schema looks at, each before its parts, are its sites
(`Schema.sites`). Without further checks a check reports, site by site in
this order, what is not as it is asked for there, and nothing else
(`Schema.check_of_bare`); a site knows the way to its value, which is what
the path of an issue is made from. A report of a value that is none of those
allowed lists them (`Schema.shown`), and there is no report if one of them has
a number too long to write. That a value conforms is said apart from all
this, along the shapes of schemas (`Schema.Conforms`), and it is that nothing
is reported (`issues_are_faults_depth_first`).
-/
import Depot.Merge.Schema
import Depot.Proofs.Value.Writing

namespace Depot

-- ================================================================ ways

/-- A step from a value to one of its parts. -/
inductive Turn where
  | entry (key : String)
  | item (i : Nat)
  deriving DecidableEq

/-- The text of a path with one more step. -/
def Turn.onto (path : String) : Turn → String
  | .entry key => s!"{path}.{key}"
  | .item i => s!"{path}[{i}]"

/-- The text of a path that leads on from a root. -/
def pathText (root : String) (way : List Turn) : String := way.foldl Turn.onto root

/-- The part of a value to which a step leads. A mapping has null under the
keys that it lacks. -/
def Value.part? : Value → Turn → Option Value
  | .list xs, .item i => xs[i]?
  | .object fs, .entry key => some (Fields.getD fs key)
  | _, _ => none

/-- The value to which a way leads. -/
def Value.follow (v : Value) (way : List Turn) : Option Value := way.foldlM Value.part? v

theorem Value.isNull_eq_false {v : Value} (h : v ≠ .null) : v.isNull = false := by
  cases v with
  | null => exact absurd rfl h
  | bool | int | float | str | list | object => rfl

namespace Merge

/-- A place further on the way. -/
def Place.along (place : Place) (way : List Turn) : Place :=
  way.foldl (fun place turn => place.at (turn.onto place.path.label)) place

/-- A way from a place that is named by a text leads to the text of both. -/
theorem Place.along_texts (root : String) (source config : Value) (way : List Turn) :
    Place.along ⟨.str root, source, config⟩ way = ⟨.str (pathText root way), source, config⟩ := by
  induction way generalizing root with
  | nil => rfl
  | cons turn way ih => exact ih (turn.onto root)

-- ========================================================= conformance

/-- Whether a value is of the kind that a shape asks for, or one of the values
that it allows. -/
def Shape.suits : Shape → Value → Bool
  | .string, .str _ => true
  | .number, .int _ => true
  | .number, .float _ => true
  | .boolean, .bool _ => true
  | .array _, .list _ => true
  | .object _, .object _ => true
  | .choice allowed, v => v.isAmong allowed
  | _, _ => false

mutual
/-- A value is as a schema asks for: it may be null unless it is required, and
else it suits the shape and so do its parts. -/
def Schema.Conforms : Schema → Value → Prop
  | .of shape required _, v =>
      if v = .null then required = false else shape.suits v = true ∧ shape.PartsConform v
/-- The parts of a value are as a shape asks for. -/
def Shape.PartsConform : Shape → Value → Prop
  | .array items, .list xs => items.AllConform xs
  | .object properties, .object fs => properties.AllConform fs
  | _, _ => True
/-- All items are as the schema for items asks for. -/
def ItemSchema.AllConform : ItemSchema → List Value → Prop
  | .any, _ => True
  | .each schema, xs => ∀ x ∈ xs, schema.Conforms x
/-- What stands under the keys of properties is as their schemas ask for. -/
def PropertySchemas.AllConform : PropertySchemas → Fields → Prop
  | .none, _ => True
  | .entry key schema rest, fs => schema.Conforms (Fields.getD fs key) ∧ rest.AllConform fs
end

mutual
/-- A schema has only checks of some kind, at every level. -/
def Schema.HasOnly (p : FieldCheck → Prop) : Schema → Prop
  | .of shape _ checks => (∀ check ∈ checks, p check) ∧ shape.HasOnly p
/-- The schemas of a shape have only checks of some kind. -/
def Shape.HasOnly (p : FieldCheck → Prop) : Shape → Prop
  | .array items => items.HasOnly p
  | .object properties => properties.HasOnly p
  | _ => True
/-- The schema for items has only checks of some kind. -/
def ItemSchema.HasOnly (p : FieldCheck → Prop) : ItemSchema → Prop
  | .any => True
  | .each schema => schema.HasOnly p
/-- The schemas of properties have only checks of some kind. -/
def PropertySchemas.HasOnly (p : FieldCheck → Prop) : PropertySchemas → Prop
  | .none => True
  | .entry _ schema rest => schema.HasOnly p ∧ rest.HasOnly p
end

/-- A schema without further checks. -/
def Schema.Bare (schema : Schema) : Prop := schema.HasOnly fun _ => False

-- =============================================================== parts

/-- A part of a value with what is asked of it. -/
structure Part where
  turn : Turn
  schema : Schema
  value : Value

/-- The items of a list with what is asked of them. -/
def ItemSchema.parts : ItemSchema → List Value → List Part
  | .any, _ => []
  | .each schema, xs => xs.zipIdx.map fun (v, i) => ⟨.item i, schema, v⟩

/-- What stands under the keys of properties, with what is asked of it. -/
def PropertySchemas.parts : PropertySchemas → Fields → List Part
  | .none, _ => []
  | .entry key schema rest, fs => ⟨.entry key, schema, Fields.getD fs key⟩ :: rest.parts fs

/-- A part of a list is one item under the schema of items, at its position. -/
theorem ItemSchema.exists_of_mem_parts {items : ItemSchema} {xs : List Value} {p : Part}
    (h : p ∈ items.parts xs) :
    ∃ i, items = .each p.schema ∧ p.turn = .item i ∧ xs[i]? = some p.value := by
  cases items with
  | any => cases h
  | each schema =>
      obtain ⟨⟨v, i⟩, he, rfl⟩ := List.mem_map.1 h
      exact ⟨i, rfl, rfl, List.mem_zipIdx_iff_getElem?.1 he⟩

/-- What is under the key of a property is a part, and nothing else is. -/
theorem PropertySchemas.of_mem_parts : ∀ {properties : PropertySchemas} {fs : Fields} {p : Part},
    p ∈ properties.parts fs →
    (∃ key, p.turn = .entry key ∧ p.value = Fields.getD fs key)
      ∧ sizeOf p.schema < sizeOf properties
  | .none, _, _, h => by cases h
  | .entry key schema rest, fs, p, h => by
      rw [PropertySchemas.parts] at h
      have hsize : sizeOf (PropertySchemas.entry key schema rest)
          = 1 + sizeOf key + sizeOf schema + sizeOf rest := rfl
      rcases List.mem_cons.1 h with rfl | hrest
      · refine ⟨⟨key, rfl, rfl⟩, ?_⟩
        show sizeOf schema < _
        omega
      · obtain ⟨hpart, hless⟩ := PropertySchemas.of_mem_parts hrest
        exact ⟨hpart, by omega⟩

namespace Schema

variable {schema : Schema} {v : Value} {p : Part}

/-- The kind of value that is asked for. -/
def shape : Schema → Shape
  | .of shape _ _ => shape

/-- Whether the value has to be given. -/
def required : Schema → Bool
  | .of _ required _ => required

/-- What is checked besides, at the value itself. -/
def checks : Schema → List FieldCheck
  | .of _ _ checks => checks

/-- The parts of a value about which a schema says something. -/
def parts (schema : Schema) (v : Value) : List Part :=
  match schema.shape, v with
  | .array items, .list xs => items.parts xs
  | .object properties, .object fs => properties.parts fs
  | _, _ => []

theorem parts_null (schema : Schema) : schema.parts .null = [] := by
  unfold parts
  cases schema.shape <;> rfl

/-- The parts of values are those of lists and those of mappings. -/
theorem cases_of_mem_parts (h : p ∈ schema.parts v) :
    (∃ items xs, schema.shape = .array items ∧ v = .list xs ∧ p ∈ items.parts xs)
      ∨ ∃ properties fs, schema.shape = .object properties ∧ v = .object fs
        ∧ p ∈ properties.parts fs := by
  unfold parts at h
  split at h
  · next items xs hshape => exact .inl ⟨items, xs, hshape, rfl, h⟩
  · next properties fs hshape => exact .inr ⟨properties, fs, hshape, rfl, h⟩
  · cases h

/-- The step to a part leads there. -/
theorem part?_of_mem_parts (h : p ∈ schema.parts v) : v.part? p.turn = some p.value := by
  rcases cases_of_mem_parts h with ⟨items, xs, -, rfl, hp⟩ | ⟨properties, fs, -, rfl, hp⟩
  · obtain ⟨i, -, hturn, hvalue⟩ := ItemSchema.exists_of_mem_parts hp
    rw [hturn]
    exact hvalue
  · obtain ⟨⟨key, hturn, hvalue⟩, -⟩ := PropertySchemas.of_mem_parts hp
    rw [hturn, hvalue]
    rfl

/-- The schema of a part is smaller. -/
theorem sizeOf_of_mem_parts (h : p ∈ schema.parts v) : sizeOf p.schema < sizeOf schema := by
  have hshape : sizeOf schema.shape < sizeOf schema := by
    cases schema with
    | of shape required checks =>
        show sizeOf shape < 1 + sizeOf shape + _ + _
        omega
  rcases cases_of_mem_parts h with ⟨items, xs, harray, -, hp⟩ | ⟨properties, fs, hobject, -, hp⟩
  · obtain ⟨i, hitems, -, -⟩ := ItemSchema.exists_of_mem_parts hp
    have hsize : sizeOf schema.shape = 1 + (1 + sizeOf p.schema) := by rw [harray, hitems]; rfl
    omega
  · obtain ⟨-, hless⟩ := PropertySchemas.of_mem_parts hp
    have hsize : sizeOf schema.shape = 1 + sizeOf properties := by rw [hobject]; rfl
    omega

/-- What holds of a schema if it holds of those of its parts, holds of every
schema. -/
theorem induction {motive : Schema → Prop}
    (step : ∀ schema, (∀ v, ∀ p ∈ schema.parts v, motive p.schema) → motive schema)
    (schema : Schema) : motive schema :=
  step schema fun _ p hp =>
    have := sizeOf_of_mem_parts hp
    induction step p.schema
termination_by sizeOf schema

-- ================================================== by way of the parts

/-- Items conform if all parts of the list do. -/
theorem allConform_items_iff (items : ItemSchema) (xs : List Value) :
    items.AllConform xs ↔ ∀ p ∈ items.parts xs, p.schema.Conforms p.value := by
  cases items with
  | any => simp [ItemSchema.AllConform, ItemSchema.parts]
  | each schema =>
      rw [ItemSchema.AllConform, ItemSchema.parts, List.forall_mem_map]
      conv => lhs; rw [← List.zipIdx_map_fst 0 xs, List.forall_mem_map]

/-- Properties conform if all parts of the mapping do. -/
theorem allConform_properties_iff : ∀ (properties : PropertySchemas) (fs : Fields),
    properties.AllConform fs ↔ ∀ p ∈ properties.parts fs, p.schema.Conforms p.value
  | .none, fs => by simp [PropertySchemas.AllConform, PropertySchemas.parts]
  | .entry key schema rest, fs => by
      rw [PropertySchemas.AllConform, PropertySchemas.parts, List.forall_mem_cons,
        allConform_properties_iff rest fs]

/-- A value conforms if it may be null and is, or suits its shape and has
parts that conform. -/
theorem conforms_iff : schema.Conforms v
    ↔ if v = .null then schema.required = false
      else schema.shape.suits v = true ∧ ∀ p ∈ schema.parts v, p.schema.Conforms p.value := by
  obtain ⟨shape, required, checks⟩ := schema
  rw [Conforms]
  have hparts : shape.PartsConform v
      ↔ ∀ p ∈ (Schema.of shape required checks).parts v, p.schema.Conforms p.value := by
    cases shape with
    | array items =>
        cases v with
        | list xs => exact allConform_items_iff items xs
        | null | bool | int | float | str | object => simp [Shape.PartsConform, parts, Schema.shape]
    | object properties =>
        cases v with
        | object fs => exact allConform_properties_iff properties fs
        | null | bool | int | float | str | list => simp [Shape.PartsConform, parts, Schema.shape]
    | string | number | boolean | choice | unknown => simp [Shape.PartsConform, parts, Schema.shape]
  rw [hparts]
  exact Iff.rfl

/-- What a schema has only, the schema of a property has only. -/
theorem HasOnly.of_mem_properties {q : FieldCheck → Prop} :
    ∀ {properties : PropertySchemas} {fs : Fields} {p : Part}, properties.HasOnly q →
    p ∈ properties.parts fs → p.schema.HasOnly q
  | .none, _, _, _, hp => by cases hp
  | .entry key schema rest, fs, p, h, hp => by
      rw [PropertySchemas.HasOnly] at h
      rcases List.mem_cons.1 hp with rfl | hrest
      · exact h.1
      · exact HasOnly.of_mem_properties h.2 hrest

/-- If there are only checks of some kind at a schema, so it is with the schemas of
its parts. -/
theorem HasOnly.of_mem_parts {q : FieldCheck → Prop} (h : schema.HasOnly q)
    (hp : p ∈ schema.parts v) : p.schema.HasOnly q := by
  obtain ⟨shape, required, checks⟩ := schema
  have hshape : shape.HasOnly q := h.2
  rcases cases_of_mem_parts hp with ⟨items, xs, harray, -, hin⟩ | ⟨properties, fs, hobject, -, hin⟩
  · obtain ⟨i, hitems, -, -⟩ := ItemSchema.exists_of_mem_parts hin
    obtain rfl : shape = .array items := harray
    rw [hitems] at hshape
    exact hshape
  · obtain rfl : shape = .object properties := hobject
    exact HasOnly.of_mem_properties hshape hin

theorem HasOnly.checks {q : FieldCheck → Prop} (h : schema.HasOnly q) :
    ∀ check ∈ schema.checks, q check := by
  obtain ⟨shape, required, checks⟩ := schema
  exact h.1

/-- Checking the items is checking the parts of the list, in order. -/
theorem checkItems_eq (items : ItemSchema) (xs : List Value) (place : Place) :
    items.checkItems xs place
      = (items.parts xs).mapM fun p => p.schema.check p.value (place.along [p.turn]) := by
  cases items with
  | any => rfl
  | each schema =>
      rw [ItemSchema.parts, List.mapM_map]
      rfl

/-- Checking the properties is checking the parts of the mapping, in order. -/
theorem checkEntries_eq : ∀ (properties : PropertySchemas) (fs : Fields) (place : Place),
    properties.checkEntries fs place
      = (properties.parts fs).mapM fun p => p.schema.check p.value (place.along [p.turn])
  | .none, _, _ => rfl
  | .entry key schema rest, fs, place => by
      rw [PropertySchemas.checkEntries, PropertySchemas.parts, List.mapM_cons,
        checkEntries_eq rest fs place]
      rfl

/-- A check finds what is wrong with the value itself, then what is wrong with
its parts, and then what its further checks find. -/
theorem check_eq (schema : Schema) (v : Value) (place : Place) :
    schema.check v place
      = if v.isNull then .ok (if schema.required then missingValue schema.shape place else {})
        else do
          let whole ← schema.shape.mismatch v place
          let parts ← (schema.parts v).mapM fun p => p.schema.check p.value (place.along [p.turn])
          let further ← schema.checks.mapM fun check => check v place
          return .collect (whole ++ parts ++ further) := by
  obtain ⟨shape, required, checks⟩ := schema
  have hparts : shape.checkParts v place = ((Schema.of shape required checks).parts v).mapM
      fun p => p.schema.check p.value (place.along [p.turn]) := by
    cases shape with
    | array items =>
        cases v with
        | list xs => exact checkItems_eq items xs place
        | null | bool | int | float | str | object => rfl
    | object properties =>
        cases v with
        | object fs => exact checkEntries_eq properties fs place
        | null | bool | int | float | str | list => rfl
    | string | number | boolean | choice | unknown => rfl
  rw [Schema.check, hparts]
  rfl

end Schema

-- =============================================================== sites

/-- A place at which a schema looks: the way there, and what is asked of the
value that it finds. -/
structure Site where
  way : List Turn
  schema : Schema
  value : Value

/-- The place as it is seen from one step back. -/
def Site.under (turn : Turn) (s : Site) : Site := { s with way := turn :: s.way }

namespace Schema

variable {schema : Schema} {v : Value}

/-- The places at which a schema looks, each before its parts. -/
def sites (schema : Schema) (v : Value) : List Site :=
  ⟨[], schema, v⟩ :: (schema.parts v).attach.flatMap fun ⟨p, hp⟩ =>
    have := sizeOf_of_mem_parts hp
    (sites p.schema p.value).map (Site.under p.turn)
termination_by sizeOf schema

/-- The sites of a value are the value itself and those of its parts, in
order. -/
theorem sites_eq (schema : Schema) (v : Value) :
    schema.sites v
      = ⟨[], schema, v⟩
        :: (schema.parts v).flatMap fun p =>
          (p.schema.sites p.value).map (Site.under p.turn) := by
  rw [sites]
  congr 1
  conv => rhs; rw [← List.attach_map_subtype_val (schema.parts v), List.flatMap_map]

/-- The way to a site leads to its value. -/
theorem follow_of_mem_sites {s : Site} (h : s ∈ schema.sites v) :
    v.follow s.way = some s.value := by
  induction schema using induction generalizing v s with
  | step schema ih =>
      rw [sites_eq] at h
      rcases List.mem_cons.1 h with rfl | hpart
      · rfl
      · obtain ⟨p, hp, hin⟩ := List.mem_flatMap.1 hpart
        obtain ⟨t, ht, rfl⟩ := List.mem_map.1 hin
        show (p.turn :: t.way).foldlM Value.part? v = some t.value
        rw [List.foldlM_cons, part?_of_mem_parts hp]
        exact ih v p hp ht

-- ============================================================== issues

/-- Whether a value itself is what is asked for, its parts aside. -/
def accepts (schema : Schema) (v : Value) : Bool :=
  if v.isNull then !schema.required else schema.shape.suits v

/-- What is reported of a value that is not what is asked for. -/
def complaint (schema : Schema) (v : Value) (place : Place) : Issue :=
  let about := fun (message expected code : String) =>
    (⟨message, place.path, place.source, v, .str expected, some code⟩ : Issue)
  match v, schema.shape with
  | .null, shape =>
      about "Required field is missing" s!"Non-null value of type {shape.name}"
        "REQUIRED_FIELD_MISSING"
  | _, .choice allowed =>
      let list := ", ".intercalate (allowed.map Value.label)
      about "Value is not a valid enum value" s!"One of: {list}" "INVALID_ENUM_VALUE"
  | _, shape => about "Type mismatch" s!"Type: {shape.name}" "TYPE_MISMATCH"

/-- The sites at which a value is not what is asked for, in depth-first order. -/
def faults (schema : Schema) (v : Value) : List Site :=
  (schema.sites v).filter fun s => !s.schema.accepts s.value

/-- What is reported of the faults of a value. -/
def issues (schema : Schema) (v : Value) (place : Place) : List Issue :=
  (schema.faults v).map fun s => s.schema.complaint s.value (place.along s.way)

/-- The values that are listed in what is reported of a value itself: those that
are allowed, if it is none of them. -/
def listed (schema : Schema) (v : Value) : List Value :=
  match schema.shape with
  | .choice allowed => if v.isNull || schema.accepts v then [] else allowed
  | _ => []

/-- The values that are listed in what is reported of a value and its parts. -/
def shown (schema : Schema) (v : Value) : List Value :=
  (schema.sites v).flatMap fun s => s.schema.listed s.value

/-- What is found about a value itself. -/
def finding (schema : Schema) (v : Value) (place : Place) : List Findings :=
  if schema.accepts v then [] else [⟨[schema.complaint v place], []⟩]

/-- What is shown of a value is what the schema itself lists, and then its
parts. -/
theorem shown_eq (schema : Schema) (v : Value) :
    schema.shown v
      = schema.listed v ++ (schema.parts v).flatMap fun p => p.schema.shown p.value := by
  unfold shown
  rw [sites_eq, List.flatMap_cons, List.flatMap_assoc]
  simp only [List.flatMap_map]
  rfl

/-- The issues of a value are its own, if it has one, and then those of its
parts. -/
theorem issues_eq (schema : Schema) (v : Value) (place : Place) :
    schema.issues v place
      = (if schema.accepts v then [] else [schema.complaint v place])
        ++ (schema.parts v).flatMap fun p => p.schema.issues p.value (place.along [p.turn]) := by
  have hparts : ((schema.parts v).flatMap fun p : Part =>
          (p.schema.sites p.value).map (Site.under p.turn)).filter
        (fun s : Site => !s.schema.accepts s.value)
      = (schema.parts v).flatMap fun p : Part =>
        ((p.schema.sites p.value).filter fun s : Site => !s.schema.accepts s.value).map
          (Site.under p.turn) := by
    rw [List.filter_flatMap]
    exact List.flatMap_congr fun p _ => List.filter_map
  unfold issues faults
  rw [sites_eq, List.filter_cons, hparts]
  by_cases h : schema.accepts v = true
  · rw [if_pos h, if_neg (by simp [h]), List.map_flatMap]
    simp only [List.map_map, List.nil_append]
    rfl
  · rw [if_neg h, if_pos (by simp [h]), List.map_cons, List.map_flatMap]
    simp only [List.map_map, List.singleton_append]
    rfl

theorem complaint_path (schema : Schema) (v : Value) (place : Place) :
    (schema.complaint v place).path = place.path := by
  unfold complaint
  split <;> rfl

theorem complaint_actual (schema : Schema) (v : Value) (place : Place) :
    (schema.complaint v place).actual = v := by
  unfold complaint
  split <;> rfl

/-- A value conforms if it is accepted at every site. -/
theorem conforms_iff_sites :
    schema.Conforms v ↔ ∀ s ∈ schema.sites v, s.schema.accepts s.value = true := by
  induction schema using induction generalizing v with
  | step schema ih =>
      have hparts : (∀ s ∈ (schema.parts v).flatMap fun p : Part =>
            (p.schema.sites p.value).map (Site.under p.turn), s.schema.accepts s.value = true)
          ↔ ∀ p ∈ schema.parts v, p.schema.Conforms p.value := by
        simp only [List.forall_mem_flatMap, List.forall_mem_map]
        exact forall₂_congr fun p hp => (ih v p hp).symm
      rw [conforms_iff, sites_eq, List.forall_mem_cons, hparts]
      unfold accepts
      cases v with
      | null => simp [Value.isNull, parts]
      | bool | int | float | str | list | object => simp [Value.isNull]

/-- A value conforms if there is no site at which it is not accepted. -/
theorem conforms_iff_faults : schema.Conforms v ↔ schema.faults v = [] := by
  rw [conforms_iff_sites, faults, List.filter_eq_nil_iff]
  simp

/-- Nothing is listed of a value that is accepted. -/
theorem listed_of_accepts (h : schema.accepts v = true) : schema.listed v = [] := by
  unfold listed
  split
  · rw [h, Bool.or_true]
    rfl
  · rfl

/-- Of a value that conforms nothing is shown. -/
theorem shown_of_conforms (h : schema.Conforms v) : schema.shown v = [] :=
  List.flatMap_eq_nil_iff.2 fun s hs => listed_of_accepts (conforms_iff_sites.1 h s hs)

/-- Of a given value is reported whether it is accepted, and what it could have
been is written. -/
theorem mismatch_eq (schema : Schema) (h : v ≠ .null) (place : Place) :
    schema.shape.mismatch v place
      = (Value.list (schema.listed v)).written (schema.finding v place) := by
  have haccepts : schema.accepts v = schema.shape.suits v := by
    unfold accepts
    rw [Value.isNull_eq_false h]
    rfl
  unfold finding complaint listed
  rw [haccepts, Value.isNull_eq_false h]
  generalize schema.shape = shape
  cases shape with
  | choice allowed =>
      have hmismatch : (Shape.choice allowed).mismatch v place
          = if v.isAmong allowed then .ok [] else do
              let list := ", ".intercalate (← (Value.list allowed).written (allowed.map Value.label))
              return [fail "Value is not a valid enum value" place v (.str s!"One of: {list}")
                "INVALID_ENUM_VALUE"] := by
        rw [← Value.mapM_written]
        rfl
      rw [hmismatch, Value.map_written]
      cases hamong : v.isAmong allowed with
      | true => cases v <;> first | exact absurd rfl h | simp [Shape.suits, hamong]; rfl
      | false => cases v <;> first | exact absurd rfl h | simp [Shape.suits, hamong]; rfl
  | string | number | boolean | array | object | unknown =>
      cases v <;> first | exact absurd rfl h | rfl

theorem shown_null (schema : Schema) : schema.shown .null = [] := by
  rw [shown_eq, parts_null]
  unfold listed
  split <;> rfl

/-- Null has no parts, and nothing further is checked of it. -/
theorem check_null (schema : Schema) (place : Place) :
    schema.check .null place = .ok ⟨schema.issues .null place, []⟩ := by
  rw [check_eq, issues_eq, parts_null]
  cases hrequired : schema.required with
  | true => simp [Value.isNull, accepts, complaint, missingValue, hrequired]
  | false => simp [Value.isNull, accepts, hrequired]

/-- A given value is complained about before its parts. -/
theorem check_given (schema : Schema) (h : v ≠ .null) (place : Place) :
    schema.check v place = (do
      let own ← (Value.list (schema.listed v)).written (schema.finding v place)
      let parts ← (schema.parts v).mapM fun p => p.schema.check p.value (place.along [p.turn])
      let further ← schema.checks.mapM fun check => check v place
      return .collect (own ++ parts ++ further)) := by
  rw [check_eq, Value.isNull_eq_false h, mismatch_eq schema h]
  rfl

/-- Without further checks a check reports just the complaints at the sites,
if what they list can be written. -/
theorem check_of_bare (bare : schema.Bare) (v : Value) (place : Place) :
    schema.check v place = (Value.list (schema.shown v)).written ⟨schema.issues v place, []⟩ := by
  induction schema using induction generalizing v place with
  | step schema ih =>
      by_cases hnull : v = .null
      · rw [hnull, shown_null]
        exact schema.check_null place
      · have hparts : (schema.parts v).mapM
              (fun p => p.schema.check p.value (place.along [p.turn]))
            = (Value.list ((schema.parts v).map fun p => .list (p.schema.shown p.value))).written
              ((schema.parts v).map fun p =>
                ⟨p.schema.issues p.value (place.along [p.turn]), []⟩) := by
          rw [← Value.mapM_written_map]
          exact mapM_congr fun p hp => ih v p hp (bare.of_mem_parts hp) p.value _
        have hchecks : schema.checks = [] := List.eq_nil_iff_forall_not_mem.2 bare.checks
        rw [schema.check_given hnull, hparts, hchecks, issues_eq, shown_eq]
        have hwritable : (Value.list (schema.listed v
              ++ (schema.parts v).flatMap fun p => p.schema.shown p.value)).isWritable
            = (Value.list (.list (schema.listed v)
              :: (schema.parts v).map fun p => .list (p.schema.shown p.value))).isWritable := by
          simp only [Value.isWritable_list, List.all_append, List.all_flatMap, List.all_cons,
            List.all_map, Function.comp_def]
        have hfound : Findings.collect (schema.finding v place
              ++ ((schema.parts v).map fun p =>
                ⟨p.schema.issues p.value (place.along [p.turn]), []⟩) ++ [])
            = ⟨(if schema.accepts v then [] else [schema.complaint v place])
              ++ (schema.parts v).flatMap fun p => p.schema.issues p.value (place.along [p.turn]),
              []⟩ := by
          unfold Findings.collect finding
          cases schema.accepts v <;> simp [List.flatMap_map]
        rw [Value.written_congr hwritable, ← hfound]
        simp only [List.mapM_nil, pure_bind, Value.map_written]
        exact Value.written_cons _ _ _ fun own => Findings.collect (own ++ _ ++ [])

end Schema

/-- A schema without further checks reports that there is no error just if the
value conforms. It reports one issue for each site where the value is not what
is asked for, in depth-first order; the path of an issue is the text of the way
that leads from the root to the value that it shows. No report comes about just
if it had to list, among the values that are allowed at one of these sites, one
with a number too long to write. -/
theorem issues_are_faults_depth_first {schema : Schema} (bare : schema.Bare) (v : Value)
    (root : String) (source config : Value) :
    let report := schema.check v ⟨.str root, source, config⟩
    ((∃ findings, report = .ok findings ∧ findings.errors = []) ↔ schema.Conforms v)
      ∧ ∃ issues, report = (Value.list (schema.shown v)).written ⟨issues, []⟩
        ∧ List.Forall₂ (fun (s : Site) (issue : Issue) =>
            issue.path = .str (pathText root s.way) ∧ v.follow s.way = some issue.actual)
          (schema.faults v) issues := by
  intro report
  have hreport : report = (Value.list (schema.shown v)).written
      ⟨schema.issues v ⟨.str root, source, config⟩, []⟩ := schema.check_of_bare bare v _
  refine ⟨?_, _, hreport, ?_⟩
  · rw [Schema.conforms_iff_faults]
    constructor
    · rintro ⟨findings, hok, hnone⟩
      obtain ⟨-, rfl⟩ := Value.written_eq_ok.1 (hreport.symm.trans hok)
      exact List.map_eq_nil_iff.1 hnone
    · intro hnone
      have hissues : schema.issues v ⟨.str root, source, config⟩ = [] :=
        List.map_eq_nil_iff.2 hnone
      rw [Schema.shown_of_conforms (Schema.conforms_iff_faults.2 hnone), hissues] at hreport
      exact ⟨{}, hreport, rfl⟩
  · show List.Forall₂ _ _ ((schema.faults v).map _)
    rw [List.forall₂_map_right_iff, List.forall₂_same]
    intro s hs
    have hsite : s ∈ schema.sites v := List.mem_of_mem_filter hs
    rw [Place.along_texts, Schema.complaint_path, Schema.complaint_actual]
    exact ⟨rfl, Schema.follow_of_mem_sites hsite⟩

/-- A service has a name, ports that are numbers, and one of two tiers. -/
def serviceSchema : Schema :=
  let properties : PropertySchemas :=
    .entry "name" (.of .string true [])
      (.entry "ports" (.of (.array (.each (.of .number true []))) false [])
        (.entry "tier" (.of (.choice [.str "basic", .str "premium"]) false []) .none))
  .of (.object properties) true []

/-- A truth value is no port, a tier has to be one of those that are listed, and
a name that is missing is reported before both. -/
theorem service_issues_lead_to_its_parts :
    let service : Value :=
      .object [("ports", .list [.int 80, .bool true]), ("tier", .str "free")]
    serviceSchema.Bare ∧ ¬serviceSchema.Conforms service
      ∧ ∃ issues, serviceSchema.check service ⟨.str "service", .null, service⟩ = .ok ⟨issues, []⟩
        ∧ issues.map (fun issue => (issue.path.label, issue.actual))
          = [("service.name", .null), ("service.ports[1]", .bool true),
            ("service.tier", .str "free")]
        ∧ ∀ issue ∈ issues, ∃ way, issue.path = .str (pathText "service" way)
          ∧ service.follow way = some issue.actual := by
  intro service
  have bare : serviceSchema.Bare :=
    ⟨nofun, ⟨nofun, trivial⟩, ⟨nofun, nofun, trivial⟩, ⟨nofun, trivial⟩, trivial⟩
  obtain ⟨hconforms, issues, hreport, hways⟩ :=
    issues_are_faults_depth_first bare service "service" .null service
  obtain ⟨found, hcheck, hfound⟩ : ∃ found,
      serviceSchema.check service ⟨.str "service", .null, service⟩ = .ok ⟨found, []⟩
        ∧ found.map (fun issue => (issue.path.label, issue.actual))
          = [("service.name", .null), ("service.ports[1]", .bool true),
            ("service.tier", .str "free")] := ⟨_, rfl, rfl⟩
  obtain ⟨-, hsame⟩ := Value.written_eq_ok.1 (hreport.symm.trans hcheck)
  obtain rfl : found = issues := congrArg Findings.errors hsame
  refine ⟨bare, fun h => ?_, found, hcheck, hfound, fun issue hissue => ?_⟩
  · obtain ⟨findings, hok, hnone⟩ := hconforms.2 h
    cases hcheck.symm.trans hok
    obtain rfl : found = [] := hnone
    cases hfound
  · obtain ⟨i, hi, rfl⟩ := List.getElem_of_mem hissue
    have hlength := hways.length_eq
    exact ⟨_, (List.forall₂_iff_get.1 hways).2 i (by omega) hi⟩

end Merge
end Depot
