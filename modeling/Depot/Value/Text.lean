/-
The characters of a value. A label is how a message names it, and inside
a structure strings are quoted; the wire text has the keys of every
mapping sorted, so that values with one wire text are the same up to the
order of their keys, and whole numbers, fractions and truth values stay
apart.

Every value has such characters, but not every one may be written: what
a merge compares and reports goes through `Value.key` and
`Value.display`, which refuse a number of too many digits. A label
stands for a name: of a component, a resource, a provider, a path. Names
are texts, and a number used as one is taken to be short enough.
-/
import Depot.Value.Basic
import Depot.Number.Shortest
import Depot.Text.Quoted

namespace Depot

/-- Texts joined by a separator. -/
def joinChars (separator : List Char) : List (List Char) → List Char
  | [] => []
  | [t] => t
  | t :: ts => t ++ separator ++ joinChars separator ts

namespace Value

/-- What stands between two items. -/
def comma : List Char := [',', ' ']

/-- What stands between a key and its value. -/
def colon : List Char := [':', ' ']

-- =========================================================== display

mutual
/-- A value inside a displayed structure: strings are quoted. -/
def displayChars : Value → List Char
  | .null => "None".toList
  | .bool true => "True".toList
  | .bool false => "False".toList
  | .int n => (toString n).toList
  | .float x => x.text.toList
  | .str s => Text.display s.toList
  | .list xs => '[' :: joinChars comma (displayItems xs) ++ [']']
  | .object fs => '\x7b' :: joinChars comma (displayFields fs) ++ ['\x7d']
/-- The items of a displayed list. -/
def displayItems : List Value → List (List Char)
  | [] => []
  | v :: vs => displayChars v :: displayItems vs
/-- The entries of a displayed mapping. -/
def displayFields : List (String × Value) → List (List Char)
  | [] => []
  | (k, v) :: fs => (Text.display k.toList ++ colon ++ displayChars v) :: displayFields fs
end

/-- The value as a structure names it: strings are quoted. -/
def quotedLabel (v : Value) : String := String.ofList v.displayChars

/-- The value as a message names it: a string stands as it is. -/
def label : Value → String
  | .str s => s
  | v => v.quotedLabel

-- ============================================================== wire

/-- Entries in the order of their keys' code points. -/
def sortEntries {α : Type} (entries : List (String × α)) : List (String × α) :=
  entries.mergeSort fun a b => decide (a.1 ≤ b.1)

mutual
/-- The characters of a value's wire text, keys sorted. -/
def keyChars : Value → List Char
  | .null => "null".toList
  | .bool true => "true".toList
  | .bool false => "false".toList
  | .int n => (toString n).toList
  | .float x => x.text.toList
  | .str s => Text.wire s.toList
  | .list xs => '[' :: joinChars comma (keyItems xs) ++ [']']
  | .object fs =>
      let entries := (sortEntries (keyFields fs)).map fun (k, t) => Text.wire k.toList ++ colon ++ t
      '\x7b' :: joinChars comma entries ++ ['\x7d']
/-- The wire texts of a list's items. -/
def keyItems : List Value → List (List Char)
  | [] => []
  | v :: vs => keyChars v :: keyItems vs
/-- The wire texts of a mapping's values. -/
def keyFields : List (String × Value) → List (String × List Char)
  | [] => []
  | (k, v) :: fs => (k, keyChars v) :: keyFields fs
end

/-- The wire text of a value. -/
def wire (v : Value) : String := String.ofList v.keyChars

end Value

end Depot
