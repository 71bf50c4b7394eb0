/-
Components that plain data describes. The configuration of such a
component lists what it declares, which child scopes it makes, where it
fails and how it checks its resources.

A factory may be impure: it counts its calls and gives something else
each time. The counts are part of the memory that its work goes on.
-/
import Depot.Component
import Depot.Stub.Request

namespace Depot.Stub

/-- What a provider has seen. -/
structure Seen where
  id : Value
  provided : Nat := 0
  merged : Nat := 0
  contexts : List Value := []

/-- What stubs remember: what each provider has seen, and how often each
factory was called. -/
structure Memory where
  seen : Array Seen := #[]
  calls : Array Nat := #[]

/-- What a component declares. -/
def declarations (config : Value) : Except Fault (List (Declared Memory)) := do
  failAt config "get_requirements"
  (← config.walkAt "requirements").mapM declaredOf

/-- A component's own check of its resources, unless it leaves that to the
usual one. -/
def ownCheck (config : Value) : Except Fault (Option Verdict) := do
  failAt config "validate"
  if let some own := config.given "validation" verdictOf then return some (← own)
  match config.field "only" with
  | .null => return none
  | only => return some (← Component.allPresent (← declarations config) fun key =>
      only.contains (.str key))

/-- Makes the component that a configuration describes. -/
def make : Factory Memory := fun id config resources => do
  discard (config.entriesOf "get")
  let scope ← SiteWork.scope
  for child in ← config.walkAt "children" do
    discard (SiteWork.createChild child)
  failAt config "construct"
  return .component (Component.make id (.str "spec") scope resources
    (Work.ofExcept (declarations config)) (fun _ => failAt config "initialize")
    (fun _ => ownCheck config))

/-- The first items of a list, or the first characters of a text. -/
def firstOf (n : Nat) : Value → Except Fault Value
  | .list xs => .ok (.list (xs.take n))
  | .str s => .ok (.str (s.take n).toString)
  | v => .error (.badType s!"'{v.typeName}' object is not subscriptable")

/-- A configuration whose list of requirements is cut to the first few. -/
def cutConfig (n : Nat) (config : Value) : Except Fault Value := do
  let fs ← config.entriesOf "get"
  return .object (Fields.put fs "requirements"
    (← firstOf n (config.fieldOr "requirements" (.list []))))

/-- Counts a call of a factory. -/
def countCall (n : Nat) : SiteWork Memory Nat := do
  modify fun s => { s with memory.calls := s.memory.calls.modify n (· + 1) }
  return (← get).memory.calls.getD n 0

/-- The factory of a name, as the one of a number; none if the name stands
for what cannot be called. -/
def factoryOf (n : Nat) (name : Value) : Option (Factory Memory) :=
  let always : String → Option (Factory Memory) := fun type => some fun _ _ _ => return .other type
  match name with
  | .str "impure" => some fun id config resources => do
      make id (← cutConfig (← countCall n) config) resources
  | .str "late_none" => some fun id config resources => do
      if (← countCall n) = 1 then make id config resources else return .other "NoneType"
  | .str "none" => always "NoneType"
  | .str "dict" => always "dict"
  | .str "string" => always "str"
  | .str "not_callable" => none
  | _ => some make

/-- The definition that a mapping describes. -/
def definitionOf (v : Value) : Work Memory (Definition Memory) := do
  discard (v.entriesOf "get")
  let n := (← get).memory.calls.size
  modify fun d => { d with memory.calls := d.memory.calls.push 0 }
  Definition.make (v.fieldOr "id" (.str "")) (v.fieldOr "type" (.str "spec"))
    (factoryOf n (v.field "factory")) (v.fieldOr "config" (.object []))

end Depot.Stub
