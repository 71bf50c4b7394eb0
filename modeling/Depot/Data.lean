/-
Data as a document holds it, before anything is made of it. Beside
configuration values there are bytes, sets, pairs, points in time and
numbers that are not finite, and the keys of a mapping need not be
texts.

Such data is shown in messages, asked for its type, and read into
models; what is kept of it is a value, for which `Data.toValue` writes
each key, and whatever is no value, as a message shows it.
-/
import Depot.Binary
import Depot.Number.Written
import Depot.Value.Entries

namespace Depot

/-- A thing that a document can hold and no configuration value can be,
by the name of its type, its text in a message, and its text inside a
structure. -/
structure Foreign where
  typeName : String
  text : String
  quoted : String
  deriving DecidableEq

/-- The data of a document. -/
inductive Data where
  | value (v : Value)
  | foreign (f : Foreign)
  | bytes (bytes : Binary.Bytes)
  | list (items : List Data)
  | pair (first second : Data)
  | set (items : List Data)
  | mapping (entries : List (Data × Data))

namespace Data

instance : Inhabited Data := ⟨.value .null⟩

/-- The entries of a mapping, in the order of their first setting. -/
abbrev Entries := List (Data × Data)

-- ============================================================ display

mutual
/-- Data inside a displayed structure. -/
def displayChars : Data → List Char
  | .value v => v.displayChars
  | .foreign f => f.quoted.toList
  | .bytes bs => Binary.displayChars bs
  | .list xs => '[' :: joinChars Value.comma (displayItems xs) ++ [']']
  | .pair d e => '(' :: displayChars d ++ Value.comma ++ displayChars e ++ [')']
  | .set [] => "set()".toList
  | .set xs => '\x7b' :: joinChars Value.comma (displayItems xs) ++ ['\x7d']
  | .mapping es => '\x7b' :: joinChars Value.comma (displayEntries es) ++ ['\x7d']
/-- The items of a displayed list. -/
def displayItems : List Data → List (List Char)
  | [] => []
  | d :: ds => displayChars d :: displayItems ds
/-- The entries of a displayed mapping. -/
def displayEntries : List (Data × Data) → List (List Char)
  | [] => []
  | (k, d) :: es => (displayChars k ++ Value.colon ++ displayChars d) :: displayEntries es
end

/-- The data as a message shows it: a text stands as it is. -/
def display : Data → String
  | .value v => v.label
  | .foreign f => f.text
  | d => String.ofList d.displayChars

mutual
/-- Whether all whole numbers in the data can be written in digits. -/
def isWritable : Data → Bool
  | .value (.int n) => Written.isWritable n
  | .value _ | .foreign _ | .bytes _ => true
  | .list xs | .set xs => allWritable xs
  | .pair d e => isWritable d && isWritable e
  | .mapping es => entriesWritable es
/-- Whether all whole numbers in a list can be written. -/
def allWritable : List Data → Bool
  | [] => true
  | d :: ds => isWritable d && allWritable ds
/-- Whether all whole numbers in a mapping can be written. -/
def entriesWritable : List (Data × Data) → Bool
  | [] => true
  | (k, d) :: es => isWritable k && isWritable d && entriesWritable es
end

mutual
/-- The value that the data is kept as. -/
def toValue : Data → Value
  | .value v => v
  | .foreign f => .str f.text
  | .bytes bs => .str (String.ofList (Binary.displayChars bs))
  | .list xs | .set xs => .list (toValues xs)
  | .pair d e => .list [toValue d, toValue e]
  | .mapping es => .object (Fields.ofEntries (toFields es))
/-- The values that the items of a list are kept as. -/
def toValues : List Data → List Value
  | [] => []
  | d :: ds => toValue d :: toValues ds
/-- The entries that those of a mapping are kept as. -/
def toFields : List (Data × Data) → Fields
  | [] => []
  | (k, d) :: es => (k.display, toValue d) :: toFields es
end

-- ============================================================== views

/-- The name of the data's type in messages. -/
def typeName : Data → String
  | .value v => v.typeName
  | .foreign f => f.typeName
  | .bytes _ => "bytes"
  | .list _ => "list"
  | .pair .. => "tuple"
  | .set _ => "set"
  | .mapping _ => "dict"

/-- Whether the data counts as given. -/
def isTruthy : Data → Bool
  | .value v => v.isTruthy
  | .foreign _ | .pair .. => true
  | .bytes bs => !bs.isEmpty
  | .list xs | .set xs => !xs.isEmpty
  | .mapping es => !es.isEmpty

/-- Whether two pieces of data are one key. -/
def sameKey : Data → Data → Bool
  | .value v, .value w => v.same w
  | .foreign f, .foreign g => f = g
  | .bytes bs, .bytes cs => bs = cs
  | _, _ => false

/-- Entries under texts. -/
def ofFields (fs : Fields) : Entries := fs.map fun (k, v) => (.value (.str k), .value v)

/-- The entries of a mapping with any keys. -/
def ofEntries (es : Depot.Entries) : Entries := es.map fun (k, v) => (.value k, .value v)

/-- The entries, if the data is a mapping. -/
def entries? : Data → Option Entries
  | .value v => v.fields?.map ofFields
  | .mapping es => some es
  | _ => none

/-- The items that a walk over the data meets. -/
def iterate : Data → Except Fault (List Data)
  | .value v => v.iterate.map (·.map .value)
  | .bytes bs => .ok (bs.map fun b => .value (.int b.toNat))
  | .list xs | .set xs => .ok xs
  | .pair d e => .ok [d, e]
  | .mapping es => .ok (es.map Prod.fst)
  | .foreign f => .error (.badType s!"'{f.typeName}' object is not iterable")

namespace Entries

/-- The data under a text. -/
def get? (es : Entries) (key : String) : Option Data :=
  (es.find? fun e => sameKey e.1 (.value (.str key))).map Prod.snd

/-- The data under a text, or null. -/
def getD (es : Entries) (key : String) : Data := (get? es key).getD default

/-- Sets a key: in its place if the mapping has it, at the end if not. -/
def put (es : Entries) (key d : Data) : Entries :=
  match es with
  | [] => [(key, d)]
  | (k, e) :: rest => if sameKey k key then (k, d) :: rest else (k, e) :: put rest key d

/-- Sets the entry of a text to a value. -/
def set (es : Entries) (key : String) (v : Value) : Entries :=
  put es (.value (.str key)) (.value v)

/-- The mapping that results from setting entries one after the other. -/
def ofSettings (settings : List (Data × Data)) : Entries :=
  settings.foldl (fun acc (k, d) => put acc k d) []

end Entries

end Data

end Depot
