/-
Checks of single values for use with schemas: names of resources and
storage accounts, ranges of numbers, lengths of lists, patterns. A check
asks of its value what it needs; a value that has no length, no order or
no characters is refused with a fault, not with a finding. So is one out
of bounds where the bounds cannot be written.
-/
import Depot.Merge.Schema
import Depot.Text.Pattern

namespace Depot.Merge.FieldCheck

/-- Whether a value lies between two others, ends included. -/
def isBetween (low high v : Value) : Except Fault Bool := do
  if ← Value.compare .atMost low v then Value.compare .atMost v high else return false

/-- Whether the length of a value lies between two others. -/
def hasLengthBetween (low high v : Value) : Except Fault Bool := do
  isBetween low high (.int (← v.length))

/-- What is found by holding a value against bounds: nothing if it is within
them, else what is reported of it and the bounds. -/
def within (test : Except Fault Bool) (low high : Value) (report : String → String → Findings) :
    Except Fault Findings := do
  if ← test then return {}
  return report (← low.display) (← high.display)

/-- A letter of the English alphabet or a digit from 0 to 9. -/
def isAlphanumeric (c : Char) : Bool :=
  ('a' ≤ c && c ≤ 'z') || ('A' ≤ c && c ≤ 'Z') || ('0' ≤ c && c ≤ '9')

/-- A character of a resource name. -/
def isNameChar (c : Char) : Bool := isAlphanumeric c || c = '.' || c = '_' || c = '-'

/-- Whether a text has the form of a resource name: characters of names
between a letter or digit at either end. A line feed may follow. -/
def isResourceName (cs : List Char) : Bool :=
  let body := if cs.getLast? = some '\n' then cs.dropLast else cs
  body.all isNameChar && body.head?.any isAlphanumeric && body.getLast?.any isAlphanumeric

/-- The pattern of resource names as reports show it. -/
def resourceNamePattern : String := "^[a-zA-Z0-9]([a-zA-Z0-9._-]*[a-zA-Z0-9])?$"

/-- A resource name of a length within bounds. -/
def resourceName (low : Value := .int 1) (high : Value := .int 260) : FieldCheck :=
  fun v place => do
    let length ← within (hasLengthBetween low high v) low high fun low high =>
      fail s!"Resource name length must be between {low} and {high} characters" place v
        (.str s!"Length: {low}-{high}") "INVALID_LENGTH"
    let form := if isResourceName (← v.patternText) then {} else
      fail ("Resource name must start and end with alphanumeric, contain only " ++
        "alphanumeric, hyphens, underscores, and periods") place v
        (.str s!"Pattern: {resourceNamePattern}") "INVALID_PATTERN"
    return .collect [length, form]

/-- A character of a storage account name. -/
def isAccountChar (c : Char) : Bool := ('a' ≤ c && c ≤ 'z') || ('0' ≤ c && c ≤ '9')

/-- A storage account name: 3 to 24 small letters and digits. -/
def storageAccountName : FieldCheck := fun v place => do
  let length := if ← hasLengthBetween (.int 3) (.int 24) v then {} else
    fail "Storage account name must be 3-24 characters" place v (.str "Length: 3-24")
      "INVALID_LENGTH"
  let form := if Text.isWholly isAccountChar (← v.patternText) then {} else
    fail "Storage account name must contain only lowercase letters and numbers" place v
      (.str "Pattern: lowercase letters and numbers only") "INVALID_PATTERN"
  return .collect [length, form]

/-- A value between two others. -/
def numberRange (low high : Value) : FieldCheck := fun v place =>
  within (isBetween low high v) low high fun low high =>
    fail s!"Value must be between {low} and {high}" place v (.str s!"Range: {low}-{high}")
      "OUT_OF_RANGE"

/-- A list of a length within bounds. -/
def arrayLength (low high : Value) : FieldCheck := fun v place => do
  let count := Value.int (← v.length)
  within (isBetween low high count) low high fun low high =>
    fail s!"Array length must be between {low} and {high}" place count
      (.str s!"Length: {low}-{high}") "INVALID_LENGTH"

/-- A text in which a pattern occurs. -/
def pattern (p : Text.Matcher) (description : Value) : FieldCheck := fun v place => do
  if p.occursIn (String.ofList (← v.patternText)) then return {}
  return fail s!"Value does not match {← description.display}" place v description
    "INVALID_PATTERN"

/-- No check at all: only a warning about a value that is given. -/
def note (text : Value) : FieldCheck := fun _ place => do
  return ⟨[], [s!"{place.path.label}: {← text.display}"]⟩

end Depot.Merge.FieldCheck
