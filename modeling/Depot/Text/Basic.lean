/-
Small passes over texts: replacing what is outside an alphabet, making
runs of a mark single, stripping a mark from both ends, cutting at a
mark. Each works on the list of characters, so that its effect can be
stated by the list lemmas.
-/

namespace Depot.Text

/-- Replaces every character outside `keep` by `mark`. -/
def replaceOutside (keep : Char → Bool) (mark : Char) (cs : List Char) : List Char :=
  cs.map fun c => if keep c then c else mark

/-- Makes every run of `mark` a single `mark`. -/
def squeeze (mark : Char) : List Char → List Char
  | [] => []
  | c :: rest =>
      if c = mark ∧ rest.head? = some mark then squeeze mark rest else c :: squeeze mark rest

/-- Drops the characters of `mark` at the end. -/
def dropTrailing (mark : Char → Bool) (cs : List Char) : List Char :=
  (cs.reverse.dropWhile mark).reverse

/-- Drops the characters of `mark` at both ends. -/
def strip (mark : Char → Bool) (cs : List Char) : List Char :=
  dropTrailing mark (cs.dropWhile mark)

/-- Cuts a text at every `mark`. There is always at least one piece. -/
def cut (mark : Char) : List Char → List (List Char)
  | [] => [[]]
  | c :: rest =>
      if c = mark then [] :: cut mark rest
      else
        match cut mark rest with
        | [] => [[c]]
        | piece :: pieces => (c :: piece) :: pieces

/-- Makes every end of a line a single line feed. -/
def withLineFeeds : List Char → List Char
  | '\r' :: '\n' :: rest => '\n' :: withLineFeeds rest
  | c :: rest => (if c = '\r' then '\n' else c) :: withLineFeeds rest
  | [] => []

/-- The last piece of a text cut at every `mark`. -/
def lastPiece (mark : Char) (cs : List Char) : List Char :=
  (cs.reverse.takeWhile (· ≠ mark)).reverse

/-- Whether `part` occurs in a text as one stretch. -/
def occursIn (part : List Char) : List Char → Bool
  | [] => part.isEmpty
  | c :: rest => part.isPrefixOf (c :: rest) || occursIn part rest

/-- Whether all characters satisfy `ok`, there is at least one, and at
most one line feed may follow them. This is how a pattern that is
anchored at both ends reads a text. -/
def isWholly (ok : Char → Bool) (cs : List Char) : Bool :=
  let body := if cs.getLast? = some '\n' then cs.dropLast else cs
  !body.isEmpty && body.all ok

end Depot.Text

namespace Depot

/-- The pieces of a string between its occurrences of `mark`. -/
def cutString (mark : Char) (s : String) : List String :=
  (Text.cut mark s.toList).map String.ofList

end Depot
