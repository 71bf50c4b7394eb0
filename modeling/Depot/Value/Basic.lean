/-
Configuration values: what a component may write into a configuration,
what a file or a message carries, and what a report shows. A mapping
keeps its keys in the order in which they were first set, because merges
walk them in that order.

The type is a plain tree. That a mapping has each key once is a property
(`Value.Distinct`) that readers establish and `Fields.put` keeps, not an
index of the type.

Values are those that a JSON text can write, and whole numbers of any
length. So there are no infinities among them and nothing that is no number,
no dates, no texts with lone surrogates, and no mappings with keys other
than texts. What is said of every value, or of every configuration, is said
of these.
-/
import Depot.Number.Double

namespace Depot

/-- A configuration value. -/
inductive Value where
  | null
  | bool (b : Bool)
  | int (n : Int)
  | float (x : Double)
  | str (s : String)
  | list (items : List Value)
  | object (fields : List (String × Value))
  deriving Inhabited

/-- The entries of a mapping, in the order of their first setting. -/
abbrev Fields := List (String × Value)

-- ============================================================ fields

namespace Fields

/-- The value under a key. -/
def get? (fs : Fields) (key : String) : Option Value := fs.lookup key

/-- The value under a key, or null. -/
def getD (fs : Fields) (key : String) : Value := (get? fs key).getD .null

/-- Whether the mapping has the key. -/
def has (fs : Fields) (key : String) : Bool := (get? fs key).isSome

/-- The keys in order. -/
def keys (fs : Fields) : List String := fs.map Prod.fst

/-- Sets a key: in its place if the mapping has it, at the end if not. -/
def put (fs : Fields) (key : String) (v : Value) : Fields :=
  match fs with
  | [] => [(key, v)]
  | (k, w) :: rest => if k = key then (k, v) :: rest else (k, w) :: put rest key v

/-- Sets several keys in order. -/
def putAll (fs : Fields) (new : Fields) : Fields :=
  new.foldl (fun acc (k, v) => put acc k v) fs

/-- The mapping that results from setting entries one after the other. -/
def ofEntries (entries : Fields) : Fields := putAll [] entries

/-- The mapping without a key. -/
def erase (fs : Fields) (key : String) : Fields := fs.filter (·.1 ≠ key)

/-- The entries that are not null. -/
def dropNulls (fs : Fields) : Fields := fs.filter fun
  | (_, .null) => false
  | _ => true

end Fields

-- ========================================================== equality

namespace Value

mutual
/-- Sameness of values, the order of keys included. -/
def decEq : (v w : Value) → Decidable (v = w)
  | .null, .null => isTrue rfl
  | .bool a, .bool b => decidable_of_iff (a = b) (by simp)
  | .int a, .int b => decidable_of_iff (a = b) (by simp)
  | .float a, .float b => decidable_of_iff (a = b) (by simp)
  | .str a, .str b => decidable_of_iff (a = b) (by simp)
  | .list a, .list b =>
      match decEqItems a b with
      | isTrue h => isTrue (by rw [h])
      | isFalse h => isFalse (by simp [h])
  | .object a, .object b =>
      match decEqFields a b with
      | isTrue h => isTrue (by rw [h])
      | isFalse h => isFalse (by simp [h])
  | .null, .bool _ | .null, .int _ | .null, .float _ | .null, .str _ | .null, .list _
  | .null, .object _ | .bool _, .null | .bool _, .int _ | .bool _, .float _ | .bool _, .str _
  | .bool _, .list _ | .bool _, .object _ | .int _, .null | .int _, .bool _ | .int _, .float _
  | .int _, .str _ | .int _, .list _ | .int _, .object _ | .float _, .null | .float _, .bool _
  | .float _, .int _ | .float _, .str _ | .float _, .list _ | .float _, .object _
  | .str _, .null | .str _, .bool _ | .str _, .int _ | .str _, .float _ | .str _, .list _
  | .str _, .object _ | .list _, .null | .list _, .bool _ | .list _, .int _ | .list _, .float _
  | .list _, .str _ | .list _, .object _ | .object _, .null | .object _, .bool _
  | .object _, .int _ | .object _, .float _ | .object _, .str _ | .object _, .list _ =>
      isFalse nofun
/-- Sameness of lists of values. -/
def decEqItems : (vs ws : List Value) → Decidable (vs = ws)
  | [], [] => isTrue rfl
  | [], _ :: _ | _ :: _, [] => isFalse nofun
  | v :: vs, w :: ws =>
      match decEq v w, decEqItems vs ws with
      | isTrue h, isTrue h' => isTrue (by rw [h, h'])
      | isFalse h, _ | _, isFalse h => isFalse (by simp [h])
/-- Sameness of mappings, the order of keys included. -/
def decEqFields : (fs gs : List (String × Value)) → Decidable (fs = gs)
  | [], [] => isTrue rfl
  | [], _ :: _ | _ :: _, [] => isFalse nofun
  | (k, v) :: fs, (l, w) :: gs =>
      if hk : k = l then
        match decEq v w, decEqFields fs gs with
        | isTrue h, isTrue h' => isTrue (by rw [hk, h, h'])
        | isFalse h, _ | _, isFalse h => isFalse (by simp [h])
      else isFalse (by simp [hk])
end

instance : DecidableEq Value := decEq

-- ============================================================= views

/-- Whether the value is null. -/
def isNull : Value → Bool
  | .null => true
  | _ => false

/-- The entries, if the value is a mapping. -/
def fields? : Value → Option Fields
  | .object fs => some fs
  | _ => none

/-- The entries of a mapping; none where there is no mapping. -/
def entries (v : Value) : Fields := v.fields?.getD []

/-- The items, if the value is a list. -/
def items? : Value → Option (List Value)
  | .list xs => some xs
  | _ => none

/-- The text, if the value is a string. -/
def text? : Value → Option String
  | .str s => some s
  | _ => none

/-- Whether the value counts as given: null, false, zero and what is
empty do not. -/
def isTruthy : Value → Bool
  | .null => false
  | .bool b => b
  | .int n => n ≠ 0
  | .float x => !x.isZero
  | .str s => s ≠ ""
  | .list xs => !xs.isEmpty
  | .object fs => !fs.isEmpty

/-- The value itself if it counts as given, else the other one. -/
def orElse (v other : Value) : Value := if v.isTruthy then v else other

/-- The name of the value's type in messages. -/
def typeName : Value → String
  | .null => "NoneType"
  | .bool _ => "bool"
  | .int _ => "int"
  | .float _ => "float"
  | .str _ => "str"
  | .list _ => "list"
  | .object _ => "dict"

/-- The kind of the value in conflict reports and schemas. -/
def kind : Value → String
  | .null => "null"
  | .bool _ => "boolean"
  | .int _ | .float _ => "number"
  | .str _ => "string"
  | .list _ => "array"
  | .object _ => "object"

/-- Whether the value is a number; a truth value is none. -/
def isNumber : Value → Bool
  | .int _ | .float _ => true
  | _ => false

/-- The value under a key; null where there is none or nothing to look
in. -/
def field (v : Value) (key : String) : Value :=
  match v with
  | .object fs => Fields.getD fs key
  | _ => .null

/-- The value under a key, or another one if the key is missing. -/
def fieldOr (v : Value) (key : String) (other : Value) : Value :=
  match v with
  | .object fs => (Fields.get? fs key).getD other
  | _ => other

/-- What a function makes of the value under a key, unless that is null or
missing. -/
def given {α : Type} (v : Value) (key : String) (f : Value → α) : Option α :=
  match v.field key with
  | .null => none
  | w => some (f w)

/-- The text under a key. -/
def textAt? (v : Value) (key : String) : Option String := (v.field key).text?

/-- The text under a key, or another one if the key is missing. What is no
text counts as the empty one. -/
def textAt (v : Value) (key : String) (other : String := "") : String :=
  (v.fieldOr key (.str other)).text?.getD ""

/-- The entries of the mapping under a key; none where there is no
mapping. -/
def entriesAt (v : Value) (key : String) : Fields := (v.field key).entries

/-- A text or null. -/
def ofText? : Option String → Value
  | some s => .str s
  | none => .null

/-- What an option holds as a value; null if it holds nothing. -/
def ofOption {α : Type} (f : α → Value) : Option α → Value
  | some a => f a
  | none => .null

/-- A list of texts. -/
def texts (ss : List String) : Value := .list (ss.map .str)

/-- A list of mappings. -/
def objects {α : Type} (f : α → Fields) (xs : List α) : Value :=
  .list (xs.map fun a => .object (f a))

/-- Entries as a list of pairs, for where their order matters. -/
def pairs {α : Type} (f : α → Value) (entries : List (String × α)) : Value :=
  .list (entries.map fun (key, a) => .list [.str key, f a])

mutual
/-- How many levels of mappings lie inside each other. -/
def depth : Value → Nat
  | .object fs => fieldsDepth fs + 1
  | _ => 0
/-- The greatest depth of a mapping's values. -/
def fieldsDepth : List (String × Value) → Nat
  | [] => 0
  | (_, v) :: fs => max (depth v) (fieldsDepth fs)
end

mutual
/-- Each mapping in the value has each of its keys once. -/
def Distinct : Value → Prop
  | .list xs => ItemsDistinct xs
  | .object fs => (fs.map Prod.fst).Nodup ∧ FieldsDistinct fs
  | _ => True
/-- Each mapping in these values has each of its keys once. -/
def ItemsDistinct : List Value → Prop
  | [] => True
  | v :: vs => Distinct v ∧ ItemsDistinct vs
/-- Each mapping under these entries has each of its keys once. -/
def FieldsDistinct : List (String × Value) → Prop
  | [] => True
  | (_, v) :: fs => Distinct v ∧ FieldsDistinct fs
end

end Value

end Depot
