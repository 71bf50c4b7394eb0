/-
Deep merging of mappings. What a later mapping sets replaces what an
earlier one set, except that two mappings under one key are merged in
their turn. Lists are replaced as a whole.
-/
import Depot.Value.Entries

namespace Depot

/-- The entries of `source` merged over `target`. -/
def Fields.deepMerge (target : Fields) : List (String × Value) → Fields
  | [] => target
  | (key, .object new) :: rest =>
      match get? target key with
      | some (.object old) => deepMerge (put target key (.object (deepMerge old new))) rest
      | _ => deepMerge (put target key (.object new)) rest
  | (key, v) :: rest => deepMerge (put target key v) rest

/-- One value merged over what a mapping has in its place. -/
def Value.mergedOver (old : Option Value) (new : Value) : Value :=
  match old, new with
  | some (.object old), .object new => .object (Fields.deepMerge old new)
  | _, v => v

/-- The entries of `source` merged over entries under keys of any kind. -/
def Entries.deepMerge (target : Entries) (source : Fields) : Entries :=
  source.foldl (fun acc (key, v) =>
    acc.put (.str key) (Value.mergedOver (acc.get? (.str key)) v)) target

namespace Value

/-- One deep merge of a described mapping by a source mapping. -/
def deepMerge (target source : Value) : Except Fault Entries := do
  return (← target.toEntries).deepMerge (← source.entriesOf "items")

end Value

/-- Deep merge of a list of mappings, later ones over earlier ones. -/
def Fields.deepMergeAll (sources : List Fields) : Fields := sources.foldl deepMerge []

/-- Deep merge of a list of source mappings. -/
def Value.deepMergeAll (sources : List Value) : Except Fault Fields := do
  return Fields.deepMergeAll (← sources.mapM (entriesOf "items"))

end Depot
