/-
Custom strategies, each bound to one path or to a pattern of paths. A
registry holds one strategy for each path text or pattern text; a new
one takes the place of an old one of the same text. A lookup prefers the
strategy of the exact path, then the first pattern that occurs in it.
-/
import Depot.Merge.Outcome
import Depot.Text.Pattern

namespace Depot.Merge

/-- The paths that a custom strategy is for. -/
inductive Target where
  | path (path : String)
  | pattern (pattern : Text.Matcher)

/-- The text under which a target is registered. -/
def Target.key : Target → String
  | .path p => p
  | .pattern p => p.text

/-- A strategy for some paths. -/
structure Custom where
  target : Target
  handler : Handler
  description : Value := .null

/-- The name of a kind of target. -/
def Target.kindName : Target → String
  | .path _ => "path"
  | .pattern _ => "regex"

/-- The strategy as a list: the text and the kind of its target, and its
description. -/
def Custom.toValue (c : Custom) : Value :=
  .list [.str c.target.key, .str c.target.kindName, c.description]

/-- Custom strategies in the order of their first registration. -/
structure Registry where
  entries : List Custom := []

namespace Registry

/-- Puts a strategy in the place of the one with its text, else at the
end. -/
def replace (new : Custom) : List Custom → List Custom
  | [] => [new]
  | old :: rest =>
      if old.target.key = new.target.key then new :: rest else old :: replace new rest

/-- Registers a strategy. -/
def register (r : Registry) (new : Custom) : Registry := ⟨replace new r.entries⟩

/-- The registry of strategies registered one after the other. -/
def ofList (customs : List Custom) : Registry := customs.foldl register {}

/-- The strategy registered under a text. -/
def get? (r : Registry) (key : String) : Option Custom :=
  r.entries.find? fun c => c.target.key = key

/-- Whether a strategy is bound to a pattern that occurs in a path. -/
def Custom.coversByPattern (c : Custom) (path : String) : Bool :=
  match c.target with
  | .path _ => false
  | .pattern p => p.occursIn path

/-- The strategy for a path. -/
def find (r : Registry) (path : String) : Option Custom :=
  match r.get? path with
  | some ⟨.path p, handler, description⟩ => some ⟨.path p, handler, description⟩
  | _ => r.entries.find? fun c => Custom.coversByPattern c path

/-- The strategy for a path that may be no text. Only a text can be
searched for a pattern. -/
def findFor (r : Registry) (path : Value) : Except Fault (Option Custom) :=
  let isPattern := fun (c : Custom) => match c.target with
    | .path _ => false
    | .pattern _ => true
  match path with
  | .str path => .ok (r.find path)
  | v => do
      discard v.asName
      if r.entries.any isPattern then discard v.patternText
      return none

/-- How many strategies there are. -/
def size (r : Registry) : Nat := r.entries.length

end Registry

end Depot.Merge
