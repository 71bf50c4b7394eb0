/-
A place in the text of a document: what is left to read, and where that
stands. Lines end with a line feed or one of three other breaks; tabs are
no indentation, and a byte order mark takes up no column.

A text has to be printable as a whole before it is read, so the end of
the text is the only thing that a reader can run into unawares.
-/
import Depot.Fault

namespace Depot.Yaml

/-- Why a text is no document. -/
inductive Refusal where
  /-- The text breaks the rules of the format. -/
  | malformed
  /-- Something is written like a value that does not exist. -/
  | fault (f : Fault)

-- ======================================================== characters

/-- Whether the character ends a line. -/
def isBreak (c : Char) : Bool :=
  c = '\n' || c = '\r' || c = '\u0085' || c = '\u2028' || c = '\u2029'

/-- A space or a tab. -/
def isSpace (c : Char) : Bool := c = ' ' || c = '\t'

/-- A space, a tab or a break. -/
def isGap (c : Char) : Bool := isSpace c || isBreak c

/-- Whether the character may stand in the name of an anchor or of a
directive. -/
def isWordChar (c : Char) : Bool := c.isAlphanum || c = '-' || c = '_'

/-- The characters that may stand in a document, as ranges. -/
def printableRanges : List (Nat × Nat) := [
  (0x09, 0x0A), (0x0D, 0x0D), (0x20, 0x7E), (0x85, 0x85), (0xA0, 0xD7FF), (0xE000, 0xFFFD),
  (0x10000, 0x10FFFF)]

/-- Whether the character may stand in a document. -/
def isPrintable (c : Char) : Bool :=
  printableRanges.any fun (first, last) => first ≤ c.toNat && c.toNat ≤ last

-- ============================================================ places

/-- A place in a text. -/
structure Cursor where
  rest : List Char
  index : Nat := 0
  line : Nat := 0
  column : Nat := 0

namespace Cursor

/-- The character here; nothing at the end of the text. -/
def here (p : Cursor) : Option Char := p.rest.head?

/-- The character some steps ahead. -/
def ahead (p : Cursor) (n : Nat) : Option Char := p.rest[n]?

/-- One step on. -/
def next (p : Cursor) : Cursor :=
  match p.rest with
  | [] => p
  | c :: rest =>
      if isBreak c && !(c = '\r' && rest.head? = some '\n') then ⟨rest, p.index + 1, p.line + 1, 0⟩
      else ⟨rest, p.index + 1, p.line, p.column + if c = '\ufeff' then 0 else 1⟩

/-- Some steps on. -/
def advance (p : Cursor) : Nat → Cursor
  | 0 => p
  | n + 1 => p.next.advance n

/-- The characters of a class that stand here, and the place after
them. -/
def take (p : Cursor) (ok : Char → Bool) : List Char × Cursor :=
  let taken := p.rest.takeWhile ok
  (taken, p.advance taken.length)

/-- The place after the characters of a class that stand here. -/
def skip (p : Cursor) (ok : Char → Bool) : Cursor := (p.take ok).2

/-- The place after the spaces here. -/
def skipSpaces (p : Cursor) : Cursor := p.skip (· = ' ')

/-- The place at the end of a comment that begins here, if one does. -/
def skipComment (p : Cursor) : Cursor := if p.here = some '#' then p.skip (!isBreak ·) else p

/-- The break here, as the text of a scalar keeps it, and the place after
it. All but the two separators are kept as line feeds. -/
def lineBreak? (p : Cursor) : Option (Char × Cursor) :=
  match p.rest with
  | '\r' :: '\n' :: _ => some ('\n', p.next.next)
  | c :: _ =>
      if !isBreak c then none
      else some (if c = '\u2028' ∨ c = '\u2029' then c else '\n', p.next)
  | [] => none

/-- Whether a mark between documents stands here. -/
def atMark (mark : List Char) (p : Cursor) : Bool :=
  mark.isPrefixOf p.rest && (p.ahead 3).all isGap

/-- Whether either mark between documents stands here. -/
def atAnyMark (p : Cursor) : Bool := p.atMark ['-', '-', '-'] || p.atMark ['.', '.', '.']

/-- The place after the rest of a line that holds nothing but a
comment. -/
def skipLine? (p : Cursor) : Option Cursor :=
  let p := p.skipSpaces.skipComment
  match p.lineBreak? with
  | some (_, p) => some p
  | none => if p.rest.isEmpty then some p else none

end Cursor

end Depot.Yaml
