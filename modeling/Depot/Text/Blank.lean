/-
The blanks of all scripts: the characters that may surround a number
without belonging to it, and those that part words in a file, among
them also the four information separators.
-/

namespace Depot.Text

/-- The blank characters, as ranges. -/
def blankRanges : List (Nat × Nat) := [
  (9, 13), (32, 32), (133, 133), (160, 160), (5760, 5760), (8192, 8202), (8232, 8233),
  (8239, 8239), (8287, 8287), (12288, 12288)]

/-- Whether the character is a blank. -/
def isBlank (c : Char) : Bool :=
  blankRanges.any fun (first, last) => first ≤ c.toNat && c.toNat ≤ last

/-- Whether the character parts words. -/
def isSpacing (c : Char) : Bool := isBlank c || (28 ≤ c.toNat && c.toNat ≤ 31)

end Depot.Text
