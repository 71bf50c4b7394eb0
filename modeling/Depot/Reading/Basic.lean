/-
Reading loosely typed data into a model. A reading either gives a result
or says everything that is wrong with the data, in the order of the
model's fields and with the way to each place. Two readings side by side
report the issues of both.
-/
import Depot.Fault

namespace Depot

/-- The result of reading loosely typed data, or what is wrong with it. -/
inductive Reading (α : Type) where
  | ok (a : α)
  | wrong (issues : List FieldIssue)

namespace Reading

variable {α β : Type}

/-- What is wrong with the data. -/
def issues : Reading α → List FieldIssue
  | .ok _ => []
  | .wrong issues => issues

/-- The result changed. -/
protected def map (f : α → β) : Reading α → Reading β
  | .ok a => .ok (f a)
  | .wrong issues => .wrong issues

/-- Two readings side by side; the issues of the first come first. -/
protected def seq (f : Reading (α → β)) (a : Reading α) : Reading β :=
  match f, a with
  | .ok f, .ok a => .ok (f a)
  | f, a => .wrong (f.issues ++ a.issues)

instance : Applicative Reading where
  pure := .ok
  map := Reading.map
  seq f a := Reading.seq f (a ())

/-- A reading that fails with one message. -/
def refuse (message : String) : Reading α := .wrong [⟨[], message⟩]

/-- The reading one step further into the data. -/
def under (step : String) : Reading α → Reading α
  | .ok a => .ok a
  | .wrong issues => .wrong (issues.map fun i => { i with path := step :: i.path })

/-- Readings of several places, all side by side. -/
def all : List (Reading α) → Reading (List α)
  | [] => .ok []
  | r :: rest => (· :: ·) <$> r <*> all rest

/-- The result, or a fault with all issues. -/
def toExcept : Reading α → Except Fault α
  | .ok a => .ok a
  | .wrong issues => .error (.rejected issues)

-- ============================================================ fields

/-- The message about a key that the model does not have. -/
def extraMessage : String := "Extra inputs are not permitted"

/-- A field of a mapping, read by `read`, which is given nothing if the
mapping lacks the key. -/
def field (fs : Fields) (key : String) (read : Option Value → Reading α) : Reading α :=
  (read (Fields.get? fs key)).under key

/-- A field that has to be there. -/
def required (read : Value → Reading α) : Option Value → Reading α
  | none => refuse "Field required"
  | some v => read v

/-- A field that may be missing or null. -/
def optional (read : Value → Reading α) : Option Value → Reading (Option α)
  | none | some .null => .ok none
  | some v => some <$> read v

/-- A field with a stand-in for when it is missing. -/
def orElse (default : α) (read : β → Reading α) : Option β → Reading α
  | none => .ok default
  | some v => read v

/-- A reading of a mapping that may have no other keys than those known.
The issues of the known fields come first. -/
def closed (known : List String) (fs : Fields) (r : Reading α) : Reading α :=
  let extra := (fs.filter fun (k, _) => k ∉ known).map fun (k, _) => ⟨[k], extraMessage⟩
  match r, extra with
  | .ok a, [] => .ok a
  | r, extra => .wrong (r.issues ++ extra)

end Reading

end Depot
