/-
Full case mapping of texts. Upper case goes letter by letter and may
lengthen the text. Lower case does so too, and has one rule that looks
around: a capital sigma at the end of a word becomes the final sigma.
-/
import Depot.Text.CaseTable

namespace Depot.Text

/-- Whether a character lies in one of some ranges of code points, both ends
included. -/
def withinAny (ranges : List (Nat × Nat)) (c : Char) : Bool :=
  ranges.any fun (first, last) => first ≤ c.toNat && c.toNat ≤ last

/-- Whether the final-sigma rule takes this character for a letter. -/
def isCased (c : Char) : Bool := withinAny casedRanges c

/-- Whether the final-sigma rule looks through this character. -/
def isCaseIgnorable (c : Char) : Bool := withinAny caseIgnorableRanges c

-- ======================================================== upper case

/-- The upper case of one character. -/
def upperOne (c : Char) : List Char :=
  if c.toNat < 128 then
    [if 97 ≤ c.toNat ∧ c.toNat ≤ 122 then Char.ofNat (c.toNat - 32) else c]
  else
    match upperExpansions.find? (·.1 = c.toNat) with
    | some (_, letters) => letters.map Char.ofNat
    | none =>
        match upperRuns.findSome? (·.image? c.toNat) with
        | some n => [Char.ofNat n]
        | none => [c]

/-- The upper case of a text. -/
def upper (cs : List Char) : List Char := cs.flatMap upperOne

-- ======================================================== lower case

/-- The lower case of one character, away from the final-sigma rule. -/
def lowerOne (c : Char) : List Char :=
  if c.toNat < 128 then
    [if 65 ≤ c.toNat ∧ c.toNat ≤ 90 then Char.ofNat (c.toNat + 32) else c]
  else if c = 'İ' then ['i', Char.ofNat 0x307]
  else
    match lowerRuns.findSome? (·.image? c.toNat) with
    | some n => [Char.ofNat n]
    | none => [c]

/-- Whether the nearest character that the rule does not look through is
a letter. -/
def meetsLetter (cs : List Char) : Bool :=
  match cs.dropWhile isCaseIgnorable with
  | [] => false
  | c :: _ => isCased c

/-- Lower case of a text whose preceding characters, nearest first, are
`before`. A sigma is final when a letter comes before it and none after. -/
def lowerAfter (before : List Char) : List Char → List Char
  | [] => []
  | c :: rest =>
      (if c = 'Σ' then [if meetsLetter before && !meetsLetter rest then 'ς' else 'σ']
       else lowerOne c) ++ lowerAfter (c :: before) rest

/-- The lower case of a text. -/
def lower (cs : List Char) : List Char := lowerAfter [] cs

end Depot.Text

namespace Depot

/-- The upper case of a string. -/
def upperCase (s : String) : String := String.ofList (Text.upper s.toList)

/-- The lower case of a string. -/
def lowerCase (s : String) : String := String.ofList (Text.lower s.toList)

end Depot
