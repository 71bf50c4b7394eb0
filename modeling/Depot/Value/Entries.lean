/-
Mappings whose keys need not be texts, as a list of pairs describes
them.

A mapping that is shown or passed on has texts for keys, so such entries
become fields by writing each key as a message shows it.
-/
import Depot.Value.Keyed

namespace Depot

/-- Entries under keys of any kind, in the order of their first setting. -/
abbrev Entries := Keyed Value

namespace Entries

/-- Entries under texts. -/
def ofFields (fs : Fields) : Entries := fs.map fun (k, v) => (.str k, v)

/-- The entries whose keys are texts. -/
def named (es : Entries) : Fields := es.filterMap fun
  | (.str key, v) => some (key, v)
  | _ => none

/-- The entries under the texts of their keys. -/
def toFields (es : Entries) : Fields := Fields.ofEntries (es.map fun (k, v) => (k.label, v))

/-- The entries as a list of pairs. -/
def toValue (es : Entries) : Value := es.pairs id

end Entries

namespace Value

/-- One entry of a mapping given as a list of pairs; `i` is its position
in the list. -/
def pairEntry (i : Nat) (v : Value) : Except Fault (Value × Value) :=
  match v.iterate with
  | .ok [k, w] => if k.canName then .ok (k, w) else .error (cannotName k)
  | .ok xs =>
      let found := s!"dictionary update sequence element #{i} has length {xs.length}"
      .error (.badValue s!"{found}; 2 is required")
  | .error _ =>
      .error (.badType s!"cannot convert dictionary update sequence element #{i} to a sequence")

/-- The entries that a value describes: those of a mapping, or a list of
pairs. -/
def toEntries (v : Value) : Except Fault Entries :=
  match v with
  | .object fs => .ok (.ofFields fs)
  | _ => do
      let items ← v.iterate
      return Keyed.putAll [] (← items.zipIdx.mapM fun (w, i) => pairEntry i w)

/-- The mapping that a value describes. -/
def toFields (v : Value) : Except Fault Fields :=
  match v with
  | .object fs => .ok fs
  | _ => do return (← v.toEntries).toFields

end Value

end Depot
