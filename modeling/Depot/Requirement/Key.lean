/-
Resource keys: a resource type and a requirement key joined by a colon.
Reading a key back takes exactly one colon and two given parts.
-/
import Depot.Requirement.Basic
import Depot.Text.Basic
import Depot.Text.Case

namespace Depot.ResourceKey

/-- The key of a resource. -/
def format (type key : Value) : Except Fault String :=
  if type.isTruthy && key.isTruthy then .ok s!"{type.label}:{key.label}"
  else .error (.badValue "Resource type and requirement key are required")

/-- The type and key that a resource key names. -/
def parse (resourceKey : Value) : Except Fault (String × String) :=
  match resourceKey with
  | .str s =>
      let refusal := s!"Invalid resource key format: \"{s}\". "
      match cutString ':' s with
      | [type, key] =>
          if type ≠ "" ∧ key ≠ "" then .ok (type, key)
          else .error (.badValue (refusal ++ "Both parts must be non-empty"))
      | _ =>
          .error (.badValue (refusal ++ "Expected format: \"resourceType:requirementKey\""))
  | v => .error (v.lacks "split")

/-- The key of one of several resources that a requirement is split
into. -/
def formatSplit (type key suffix : Value) : Except Fault String := do
  if ← Value.compare .below suffix (.int 1) then
    .error (.badValue "Suffix must be a positive integer")
  else format type (.str s!"{key.label}-{suffix.label}")

-- ======================================================== well-formed

/-- The characters of a well-formed requirement key. -/
def isKeyChar (c : Char) : Bool :=
  ('a' ≤ c && c ≤ 'z') || ('0' ≤ c && c ≤ '9') || c = '-'

/-- Whether a requirement key is well formed. -/
def isWellFormed (key : Value) : Except Fault Bool := do
  return Text.isWholly isKeyChar (← key.patternText)

/-- A well-formed key near a text: lower case, with a single hyphen for
every stretch of other characters, and none at the ends. -/
def sanitizeText (cs : List Char) : List Char :=
  Text.strip (· = '-') (Text.squeeze '-' (Text.replaceOutside isKeyChar '-' (Text.lower cs)))

/-- A well-formed key near a text. -/
def sanitize : Value → Except Fault String
  | .str s => .ok (String.ofList (sanitizeText s.toList))
  | v => .error (v.lacks "lower")

end Depot.ResourceKey
