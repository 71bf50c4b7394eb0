/-
Names of environment variables that say which component they belong to,
so that components on one host do not overwrite each other's. There are
two spellings: the plain one only replaces what is not a letter or
digit; the split one also separates the words of a camel-case id.
-/
import Depot.Value.Merge
import Depot.Text.Basic
import Depot.Text.Case

namespace Depot.Environment

/-- Whether a character is one of a to z. -/
def isLowerAscii (c : Char) : Bool := 'a' ≤ c && c ≤ 'z'

/-- Whether a character is one of A to Z. -/
def isUpperAscii (c : Char) : Bool := 'A' ≤ c && c ≤ 'Z'

/-- Whether a character is one of 0 to 9. -/
def isAsciiDigit (c : Char) : Bool := '0' ≤ c && c ≤ '9'

-- ===================================================== plain spelling

/-- A variable under its component's id, words of the id not split. -/
def plainName (componentId name : Value) : Except Fault String := do
  let id ← componentId.patternText
  let keep := fun c => isLowerAscii c || isUpperAscii c || isAsciiDigit c
  let owner := String.ofList (Text.upper (Text.replaceOutside keep '_' id))
  return s!"{owner}_{name.label}"

-- ===================================================== split spelling

/-- The characters of a normal name. -/
def isNameChar (c : Char) : Bool := isUpperAscii c || isAsciiDigit c || c = '_'

/-- A text in normal form: upper case, a single underscore for every
stretch of other characters, and none at the ends. -/
def normalize (cs : List Char) : List Char :=
  Text.strip (· = '_') (Text.squeeze '_' (Text.replaceOutside isNameChar '_' (Text.upper cs)))

/-- An underscore between each small letter and a capital that follows
it. The capital of one pair does not begin another. -/
def splitWords : List Char → List Char
  | a :: b :: rest =>
      if isLowerAscii a && isUpperAscii b then a :: '_' :: b :: splitWords rest
      else a :: splitWords (b :: rest)
  | cs => cs

/-- A variable under its component's id, both in normal form. -/
def splitName (componentId name : String) : String :=
  String.ofList (normalize (splitWords componentId.toList)) ++ "_" ++
    String.ofList (normalize name.toList)

/-- The split spelling of names that come as loose values. -/
def splitNameOf (componentId name : Value) : Except Fault String := do
  let id ← componentId.patternText
  match name with
  | .str text => return splitName (String.ofList id) text
  | v => throw (v.lacks "upper")

/-- The component id of a name: all before the last underscore. -/
def ownerOf : Value → Except Fault String
  | .str s =>
      let tail := Text.lastPiece '_' s.toList
      let owner := s.toList.take (s.length - tail.length - 1)
      .ok (if owner.isEmpty then s else String.ofList owner)
  | v => .error (v.lacks "rpartition")

/-- All variables of several sources, later ones over earlier ones. -/
def mergeSources (sources : List Value) : Except Fault Entries :=
  sources.foldlM (fun acc source => do return acc.putAll (← source.toEntries)) []

end Depot.Environment
