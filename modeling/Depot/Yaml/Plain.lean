/-
Plain scalars: texts without quotes, on one line or several. A plain
scalar ends before a comment, before a colon that a blank follows and,
within brackets, before their marks. Lines further in than the
indentation go on with it; their breaks are folded as between quotes.
-/
import Depot.Yaml.Quoted

namespace Depot.Yaml.Plain

/-- The marks that end a plain scalar within brackets. -/
def isBracketMark (c : Char) : Bool := [',', '?', '[', ']', '\x7b', '\x7d'].contains c

/-- The marks that end it there after a colon. -/
def isAfterColon (c : Char) : Bool := [',', '[', ']', '\x7b', '\x7d'].contains c

/-- The characters up to the next gap or the end of the scalar. -/
def word (inBrackets : Bool) : List Char → List Char
  | [] => []
  | c :: rest =>
      let colonEnds := c = ':' && rest.head?.all fun d => isGap d || (inBrackets && isAfterColon d)
      if isGap c || colonEnds || (inBrackets && isBracketMark c) then []
      else c :: word inBrackets rest

/-- What follows a word: what it stands for if the scalar goes on, whether
a line was left, and the place after it. Nothing can go on after a mark
between documents. -/
structure Gap where
  text : List Char
  leftLine : Bool
  place : Cursor

/-- The breaks and spaces after a first break; nothing if they lead to a
mark between documents. -/
def breaks : Nat → Cursor → Option (List Char) × Cursor
  | 0, p => (some [], p)
  | n + 1, p =>
      if p.here = some ' ' then breaks n p.next
      else match p.lineBreak? with
        | none => (some [], p)
        | some (c, p) =>
            if p.atAnyMark then (none, p)
            else
              let (more, p) := breaks n p
              (more.map (c :: ·), p)

/-- The gap that begins here. -/
def gap (p : Cursor) : Gap :=
  let (spaces, p) := p.take (· = ' ')
  match p.lineBreak? with
  | none => ⟨spaces, false, p⟩
  | some (first, p) =>
      if p.atAnyMark then ⟨[], true, p⟩
      else match breaks (p.rest.length + 1) p with
        | (some more, p) => ⟨Quoted.folded first more, true, p⟩
        | (none, p) => ⟨[], true, p⟩

/-- The text of a scalar, whether a line was left after it, and the place
after it, in at most `n` words. -/
def readFrom (inBrackets : Bool) (indent : Int) : Nat → Cursor → List Char × Bool × Cursor
  | 0, p => ([], false, p)
  | n + 1, p =>
      let text := word inBrackets p.rest
      let g := gap (p.advance text.length)
      let outside := !inBrackets && (g.place.column : Int) < indent
      let next := word inBrackets g.place.rest
      if g.text.isEmpty || g.place.here = some '#' || outside || next.isEmpty then
        (text, g.leftLine, g.place)
      else
        let (rest, left, p) := readFrom inBrackets indent n g.place
        (text ++ g.text ++ rest, left, p)

/-- The text of the plain scalar that begins here, whether a line was left
after it, and the place after it. Lines from column `indent` on belong
to it. -/
def read (inBrackets : Bool) (indent : Int) (p : Cursor) : List Char × Bool × Cursor :=
  readFrom inBrackets indent (p.rest.length + 1) p

end Depot.Yaml.Plain
