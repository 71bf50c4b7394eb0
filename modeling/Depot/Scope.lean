/-
Scopes: the tree of named places that resources and components are made
under. A scope knows its children in the order of their making and holds
context values of its own. A backend marks the scopes that it hands out;
whether a scope is managed is read from its own mark and from no other
scope's.

Every scope carries its path, which is fixed when the scope is made. A
descendant is addressed by the names on the way down to it, and siblings
have different names. A name is a text as a rule; any other value that
is given and can be a key will do, and a root may have any name at all.
-/
import Depot.Value.Keyed

namespace Depot

/-- The mark of a backend on a scope that it manages. -/
structure BackendMark where
  backendId : Value
  environment : Value := .null
  deriving DecidableEq

/-- The mark as a mapping. -/
def BackendMark.toFields (m : BackendMark) : Fields :=
  [("backend_id", m.backendId), ("environment", m.environment)]

/-- What a scope can hold under a context key. -/
inductive ContextValue where
  | value (v : Value)
  | mark (m : BackendMark)
  deriving DecidableEq

/-- A scope with its descendants. -/
inductive Scope where
  | node (name path : Value) (children : List Scope) (context : Keyed ContextValue)
  deriving Inhabited

namespace Scope

-- ============================================================= parts

/-- The name of the scope under its parent. -/
def name : Scope → Value
  | .node name .. => name

/-- The names from the root down to the scope, joined by slashes; of a root
its name as it is. -/
def path : Scope → Value
  | .node _ path .. => path

/-- The children in the order of their making. -/
def children : Scope → List Scope
  | .node _ _ children _ => children

/-- The context values. -/
def context : Scope → Keyed ContextValue
  | .node _ _ _ context => context

/-- The child of a name. -/
def child? (s : Scope) (name : Value) : Option Scope :=
  s.children.find? fun c => c.name.same name

/-- The child of a name, which may be one that no child can have. -/
def findChild? (s : Scope) (name : Value) : Except Fault (Option Scope) := do
  return s.child? (← name.asName)

/-- The value under a context key. -/
def get? (s : Scope) (key : Value) : Except Fault (Option ContextValue) := s.context.find? key

-- ============================================================ making

/-- The fault of a scope without a name. -/
def nameless : Fault := .badValue "Scope name is required"

/-- A scope at the top of a tree. -/
def root (name : Value) : Except Fault Scope :=
  if name.isTruthy then .ok (.node name name [] []) else .error nameless

/-- The path of a child of a name. -/
def pathBelow (s : Scope) (name : Value) : String := s!"{s.path.label}/{name.label}"

/-- The scope with one more child. -/
def create (s : Scope) (name : Value) : Except Fault Scope := do
  let name ← name.asName
  if (s.child? name).isSome then
    throw (.badValue s!"Scope \"{s.path.label}\" already has a child named \"{name.label}\"")
  else if !name.isTruthy then throw nameless
  else
    let child := node name (.str (s.pathBelow name)) [] []
    return .node s.name s.path (s.children ++ [child]) s.context

/-- The scope with another context. -/
def withContext (s : Scope) (context : Keyed ContextValue) : Scope :=
  .node s.name s.path s.children context

/-- The scope with another context value. -/
def set (s : Scope) (key : Value) (v : ContextValue) : Except Fault Scope := do
  return s.withContext (s.context.put (← key.asName) v)

-- ======================================================= descendants

/-- The descendant that some names lead to. -/
def at? (s : Scope) : List Value → Option Scope
  | [] => some s
  | name :: names => do at? (← s.child? name) names

/-- The scope with a descendant put in the place of the one that some
names lead to. -/
def replaceAt (s : Scope) : List Value → Scope → Scope
  | [], new => new
  | name :: names, new =>
      .node s.name s.path
        (s.children.map fun c => if c.name.same name then replaceAt c names new else c) s.context

mutual
/-- The paths of the scope and its descendants, each before its own
descendants. -/
def walk : Scope → List Value
  | .node _ path children _ => path :: walkAll children
/-- The paths of several scopes and their descendants. -/
def walkAll : List Scope → List Value
  | [] => []
  | s :: rest => walk s ++ walkAll rest
end

-- ============================================================= marks

/-- The context key of a backend's mark. -/
def markKey : Value := .str "backplane:backend"

/-- The scope marked by a backend. -/
def mark (s : Scope) (m : BackendMark) : Scope := s.withContext (s.context.put markKey (.mark m))

/-- The mark of the backend that manages the scope. -/
def mark? (s : Scope) : Option BackendMark :=
  match s.context.get? markKey with
  | some (.mark m) => some m
  | _ => none

/-- Whether a backend manages the scope. -/
def isManaged (s : Scope) : Bool := s.mark?.isSome

/-- The scope as messages show it. -/
def display (s : Scope) : String :=
  s!"ConstructScope({s.path.quotedLabel})"

end Scope

end Depot
