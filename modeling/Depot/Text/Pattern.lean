/-
Search patterns over texts: literal characters, any character but a line
feed, character classes, repetition of one of these, and anchors. A
pattern is searched for, so it may stand anywhere unless it is anchored;
the end anchor also holds before a line feed that ends the text.

Texts write more patterns than these. Whoever searches takes any matcher,
of which a pattern is one.
-/
import Depot.Text.Basic

namespace Depot.Text

/-- What a single place of a pattern accepts. -/
inductive Accepted where
  /-- Every character but a line feed. -/
  | any
  | only (c : Char)
  /-- The characters within the ranges. -/
  | within (ranges : List (Char × Char))
  /-- The characters outside the ranges. -/
  | outside (ranges : List (Char × Char))
  deriving DecidableEq

/-- Whether a character is accepted. -/
def Accepted.holds : Accepted → Char → Bool
  | .any, c => c ≠ '\n'
  | .only d, c => c = d
  | .within ranges, c => ranges.any fun (first, last) => first ≤ c && c ≤ last
  | .outside ranges, c => !ranges.any fun (first, last) => first ≤ c && c ≤ last

/-- One step of a pattern. -/
inductive PatternStep where
  | once (a : Accepted)
  /-- Any number of times, possibly none. -/
  | anyTimes (a : Accepted)
  /-- At least once. -/
  | repeated (a : Accepted)
  /-- As often as the text allows, and no less. -/
  | allTimes (a : Accepted)
  | atStart
  | atEnd
  deriving DecidableEq

/-- A pattern, with the text that it was read from. -/
structure Pattern where
  text : String
  steps : List PatternStep
  deriving DecidableEq

-- =========================================================== reading

/-- The character that a backslash and this one stand for. Only marks can
be written that way. -/
def escapedMark? (c : Char) : Option Char := if c.isAlphanum then none else some c

/-- One end of a range in a class, and what follows it. -/
def readClassChar : List Char → Option (Char × List Char)
  | '\\' :: c :: rest => (escapedMark? c).map fun d => (d, rest)
  | '\\' :: [] | [] => none
  | c :: rest => some (c, rest)

/-- The ranges of a class up to its closing bracket, and what follows, in
at most `n` steps. A bracket that comes first does not close the class,
and a dash that comes last is one of its characters. -/
def readClass (first : Bool) : Nat → List Char → Option (List (Char × Char) × List Char)
  | 0, _ => none
  | n + 1, cs =>
      match cs with
      | ']' :: rest =>
          if first then readRange n ']' rest else some ([], rest)
      | cs => do
          let (c, rest) ← readClassChar cs
          readRange n c rest
where
  /-- The ranges from one end of a range on. -/
  readRange (n : Nat) (low : Char) : List Char → Option (List (Char × Char) × List Char)
    | '-' :: ']' :: rest => some ([(low, low), ('-', '-')], rest)
    | '-' :: rest => do
        let (high, rest) ← readClassChar rest
        if high < low then none
        let (ranges, rest) ← readClass false n rest
        return ((low, high) :: ranges, rest)
    | rest => do
        let (ranges, rest) ← readClass false n rest
        return ((low, low) :: ranges, rest)

/-- What one place accepts, and what follows it. -/
def readAccepted (cs : List Char) : Option (Accepted × List Char) :=
  match cs with
  | '.' :: rest => some (.any, rest)
  | '\\' :: c :: rest => (escapedMark? c).map fun d => (.only d, rest)
  | '[' :: '^' :: rest => do
      let (ranges, rest) ← readClass true cs.length rest
      return (.outside ranges, rest)
  | '[' :: rest => do
      let (ranges, rest) ← readClass true cs.length rest
      return (.within ranges, rest)
  | '\\' :: [] | '*' :: _ | '+' :: _ | [] => none
  | c :: rest => some (.only c, rest)

/-- The steps that one place and its repetition amount to, and what
follows them. A plus sign after a repetition makes it take all it can; no
other repetition can be repeated. -/
def readRepeated (a : Accepted) : List Char → List PatternStep × List Char
  | '*' :: '+' :: rest => ([.allTimes a], rest)
  | '+' :: '+' :: rest => ([.once a, .allTimes a], rest)
  | '*' :: rest => ([.anyTimes a], rest)
  | '+' :: rest => ([.repeated a], rest)
  | rest => ([.once a], rest)

/-- The steps of a pattern, in at most `n` of them. -/
def readSteps : Nat → List Char → Option (List PatternStep)
  | _, [] => some []
  | 0, _ => none
  | n + 1, '^' :: rest => do return .atStart :: (← readSteps n rest)
  | n + 1, '$' :: rest => do return .atEnd :: (← readSteps n rest)
  | n + 1, cs => do
      let (a, rest) ← readAccepted cs
      let (steps, rest) := readRepeated a rest
      return steps ++ (← readSteps n rest)

/-- The pattern that a text writes. -/
def Pattern.ofText? (text : String) : Option Pattern := do
  return ⟨text, ← readSteps text.length text.toList⟩

-- =========================================================== matching

/-- Whether `next` holds after some number of accepted characters.
`start` says whether the text begins here. -/
def afterMany (a : Accepted) (next : Bool → List Char → Bool) : Bool → List Char → Bool
  | start, [] => next start []
  | start, c :: rest => next start (c :: rest) || (a.holds c && afterMany a next false rest)

/-- Whether the steps fit here. -/
def fitsHere : List PatternStep → Bool → List Char → Bool
  | [], _, _ => true
  | .atStart :: steps, start, cs => start && fitsHere steps start cs
  | .atEnd :: steps, start, cs => (cs = [] || cs = ['\n']) && fitsHere steps start cs
  | .once a :: steps, _, cs =>
      match cs with
      | [] => false
      | c :: rest => a.holds c && fitsHere steps false rest
  | .anyTimes a :: steps, start, cs => afterMany a (fitsHere steps) start cs
  | .allTimes a :: steps, start, cs =>
      let rest := cs.dropWhile a.holds
      fitsHere steps (start && rest.length = cs.length) rest
  | .repeated a :: steps, _, cs =>
      match cs with
      | [] => false
      | c :: rest => a.holds c && afterMany a (fitsHere steps) false rest

/-- Whether the steps fit here or anywhere later. -/
def fitsFrom (steps : List PatternStep) : Bool → List Char → Bool
  | start, [] => fitsHere steps start []
  | start, c :: rest => fitsHere steps start (c :: rest) || fitsFrom steps false rest

/-- Whether the pattern occurs in a text. -/
def Pattern.occursIn (p : Pattern) (text : String) : Bool := fitsFrom p.steps true text.toList

/-- What texts can be searched for: how it is written, and whether it
occurs in a text. -/
structure Matcher where
  text : String
  occursIn : String → Bool

/-- The pattern as a matcher. -/
def Pattern.matcher (p : Pattern) : Matcher := ⟨p.text, p.occursIn⟩

end Depot.Text
