/-
Block scalars: a text by its lines, from an indentation on. The header
says whether lines are kept or folded, what becomes of the breaks at the
end, and how far in the text stands, unless the first line shows it.
-/
import Depot.Yaml.Cursor

namespace Depot.Yaml.Block

/-- What becomes of the breaks at the end of a block scalar. -/
inductive Ending where
  /-- The first one stays. -/
  | clip
  /-- All of them stay. -/
  | keep
  /-- None of them stays. -/
  | strip
  deriving DecidableEq

-- ============================================================ header

/-- The ending that a sign asks for. -/
def endingOf? : Char → Option Ending
  | '+' => some .keep
  | '-' => some .strip
  | _ => none

/-- The sign of an ending here, and the place after it. -/
def readEnding (p : Cursor) : Option (Ending × Cursor) :=
  (p.here.bind endingOf?).map fun e => (e, p.next)

/-- The digit of an indentation here, and the place after it. Zero is no
indentation. -/
def readIncrement (p : Cursor) : Option (Option Nat × Cursor) :=
  match p.here with
  | some c =>
      if c = '0' then none
      else if c.isDigit then some (some (c.toNat - 48), p.next)
      else some (none, p)
  | none => some (none, p)

/-- The header that stands here, in either order, and the place after its
line. -/
def readHeader (p : Cursor) : Option (Ending × Option Nat × Cursor) := do
  let (ending, increment, p) ← match readEnding p with
    | some (ending, p) => do
        let (increment, p) ← readIncrement p
        pure (ending, increment, p)
    | none => do
        let (increment, p) ← readIncrement p
        match increment, readEnding p with
        | some _, some (ending, p) => pure (ending, increment, p)
        | _, _ => pure (.clip, increment, p)
  if !(p.here.all fun c => c = ' ' || isBreak c) then none
  return (ending, increment, ← p.skipLine?)

-- ============================================================= lines

/-- The breaks before the first line of the text, and how far in the lines
there reach. -/
def leading : Nat → Cursor → List Char × Nat × Cursor
  | 0, p => ([], 0, p)
  | n + 1, p =>
      if p.here = some ' ' then
        let (breaks, reach, q) := leading n p.next
        (breaks, max p.next.column reach, q)
      else match p.lineBreak? with
        | none => ([], 0, p)
        | some (c, p) =>
            let (breaks, reach, p) := leading n p
            (c :: breaks, reach, p)

/-- The breaks from here to the next line that is not empty, with its
spaces up to the indentation left out. -/
def breaks (indent : Nat) : Nat → Cursor → List Char × Cursor
  | 0, p => ([], p)
  | n + 1, p =>
      if p.here = some ' ' && p.column < indent then breaks indent n p.next
      else match p.lineBreak? with
        | none => ([], p)
        | some (c, p) =>
            let (more, p) := breaks indent n p
            (c :: more, p)

/-- What the break after a line and those before the next one stand for.
Only between two lines that begin with no blank is a break folded. -/
def between (isFolded blank : Bool) (lineBreak : List Char) (more : List Char) (next : Cursor) :
    List Char :=
  if isFolded && lineBreak = ['\n'] && !blank && !(next.here.any isSpace) then
    (if more.isEmpty then [' '] else []) ++ more
  else lineBreak ++ more

/-- The lines from here on, in at most `n` of them, and the place after
them; `before` are the breaks in front. -/
def lines (isFolded : Bool) (ending : Ending) (indent : Nat) (before : List Char) :
    Nat → Cursor → List Char × Cursor
  | 0, p => ([], p)
  | n + 1, p =>
      if p.column ≠ indent || p.rest.isEmpty then
        (if ending = .keep then before else [], p)
      else
        let blank := p.here.any isSpace
        let (text, p) := p.take (!isBreak ·)
        let (lineBreak, p) := match p.lineBreak? with
          | some (c, p) => ([c], p)
          | none => ([], p)
        let (more, p) := breaks indent (p.rest.length + 1) p
        if p.column = indent && !p.rest.isEmpty then
          let gap := between isFolded blank lineBreak more p
          let (rest, p) := lines isFolded ending indent [] n p
          (before ++ text ++ gap ++ rest, p)
        else
          let last := match ending with
            | .strip => []
            | .clip => lineBreak
            | .keep => lineBreak ++ more
          (before ++ text ++ last, p)

/-- The text of the block scalar that begins here with its mark, and the
place after it. It stands further in than `indent`. -/
def read? (indent : Int) (p : Cursor) : Option (List Char × Cursor) := do
  let isFolded := p.here = some '>'
  let (ending, increment, p) ← readHeader p.next
  let least := (indent + 1).toNat.max 1
  let fuel := p.rest.length + 1
  match increment with
  | none =>
      let (before, reach, p) := leading fuel p
      return lines isFolded ending (max least reach) before fuel p
  | some n =>
      let (before, p) := breaks (least + n - 1) fuel p
      return lines isFolded ending (least + n - 1) before fuel p

end Depot.Yaml.Block
