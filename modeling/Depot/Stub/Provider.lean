/-
Providers that plain data describes: the built-in ones by name, one of
plain configurations, and one that notes down what it is asked for and
does what it is told.
-/
import Depot.Provider.Registry
import Depot.Stub.Component
import Depot.Stub.Handler

namespace Depot.Stub

/-- Changes what the provider of a number has seen. -/
def note (n : Nat) (f : Seen → Seen) : Work Memory Unit :=
  modify fun d => { d with memory.seen := d.memory.seen.modify n f }

/-- The name of the scope of a resource: its key without colons. -/
def scopeName (r : Requirement) : Value :=
  .str ("-".intercalate (cutString ':' r.resourceKey))

/-- The requests as one: the first with the configurations of all merged
over each other. -/
def mergeDeep : List (Request Memory) → Except Fault (Request Memory)
  | [] => .error (.noPosition "list index out of range")
  | first :: rest =>
      first.withConfig (.object (Fields.deepMergeAll ((first :: rest).map fun r => r.config)))

/-- The resource for a requirement: its key and configuration, and the path
of a scope made for it. -/
def resourceFor (r : Requirement) : SiteWork Memory Resource := do
  let scope ← SiteWork.createChild (scopeName r)
  return .value (.object [("key", .str r.resourceKey), ("config", .object r.config),
    ("scope", .object [("scope", .str scope)])])

/-- The provider that a mapping describes. It may have no id and tell no
types. -/
def observer (v : Value) : Work Memory (Provider Memory) := do
  let n := (← get).memory.seen.size
  modify fun d => { d with memory.seen := d.memory.seen.push { id := v.field "id" } }
  let types := v.fieldOr "types" (.list [])
  return {
    id := Fields.get? v.entries "id"
    types := types
    canProvide := fun r => do
      if ← types.contains r.type then
        (v.given "only_keys" fun keys => keys.contains r.key).getD (.ok true)
      else return false
    merge := fun requests => do
      note n fun s => { s with merged := s.merged + 1 }
      failIf v "fail_merge"
      mergeDeep requests
    validateMerged := fun _ => do
      return .ofMessages (← v.walkAt "invalid") (← v.walkAt "warnings")
    provide := fun r p => do
      SiteWork.ofWork (note n fun s => { s with
        provided := s.provided + 1, contexts := s.contexts ++ [.object p.toFields] })
      failIf v "fail"
      if (v.field "returns").same (.str "none") then return .value .null
      resourceFor r }

/-- What a provider has seen, if it is one that notes that down: only those
notice a merge. -/
def seenBy? (memory : Memory) (p : Provider Memory) : Option Seen :=
  let after := ((p.merge []).run ⟨memory, []⟩).2.memory
  ((memory.seen.zip after.seen).find? fun (a, b) => a.merged ≠ b.merged).map Prod.fst

/-- The check that a mapping describes: some keys have to be there. -/
def checkOf (spec : Value) (config : Fields) : Except Fault Verdict := do
  let keys ← (← spec.walkAt "required").filterM fun key =>
    return !(← (Value.object config).contains key)
  return .ofMessages (keys.map fun key => .str s!"missing {key.label}") (← spec.walkAt "warnings")

/-- The resource that a mapping asks for: what it is made of, and where. -/
def madeBy (spec : Value) (name : String) (config : Fields) : SiteWork Memory Resource := do
  failIf spec "fail"
  return .value (.object [("made", .str name), ("config", .object config),
    ("in", (← SiteWork.scope).path)])

/-- The provider of plain configurations that a mapping describes. -/
def setupOf (v : Value) : Except Fault (Generic.Setup Memory) := do
  return {
    id := v.fieldOr "id" (.str "")
    types := ← v.walkAt "types"
    merger := ← (v.given "merger" mergerOf).getD (.ok { strict := true })
    limit := v.field "merge_limit"
    check := v.given "validate" checkOf
    make := v.given "provision" fun spec name config _ => madeBy spec name config }

/-- The provider that a mapping describes. -/
def providerOf (v : Value) : Work Memory (Provider Memory) := do
  match Fields.getD (← v.entriesOf "get") "kind" with
  | .str "cosmos" => return Cosmos.kind.provider
  | .str "functions" => return Functions.kind.provider
  | .str "storage" => return Storage.kind.provider
  | .str "generic" => return (← setupOf v).kind.provider
  | _ => observer v

/-- The provider that a mapping describes, as an offer. -/
def offerOf (v : Value) : Work Memory (Offer Memory) := do return .provider (← providerOf v)

/-- The providers in the list under a key, as offers. -/
def offersAt (v : Value) (key : String) : Work Memory (List (Offer Memory)) := do
  (← v.walkAt key).mapM offerOf

end Depot.Stub
