/-
Tokens of a document: the marks that open, part and close its
collections, and its scalars, anchors, aliases, tags and directives. The
marks of collections by indentation are tokens like those in brackets,
though nothing is written for them.
-/
import Depot.Number.Written
import Depot.Value.Reader
import Depot.Yaml.Cursor

namespace Depot.Yaml

/-- An instruction in front of a document. -/
inductive Directive where
  /-- The version of the format. -/
  | version (major : Int)
  /-- A shorthand for the beginning of tags. -/
  | shorthand (handle lead : String)
  /-- One that means nothing here. -/
  | other
  deriving DecidableEq

/-- A token of a document. -/
inductive Token where
  | directive (d : Directive)
  | documentStart
  | documentEnd
  | blockSequence
  | blockMapping
  | blockEnd
  | flowSequence
  | flowSequenceEnd
  | flowMapping
  | flowMappingEnd
  /-- The dash before an item. -/
  | item
  /-- The comma after an item or an entry in brackets. -/
  | comma
  /-- What stands before a key, written as a question mark or not at all. -/
  | key
  /-- The colon before the value of a key. -/
  | value
  | alias (name : String)
  | anchor (name : String)
  /-- A tag, by a shorthand and the rest, or in full. -/
  | tag (handle : Option String) (rest : String)
  | scalar (text : String) (plain : Bool)
  deriving DecidableEq

namespace Token

-- ======================================================= names, tags

/-- A name of at least one character, and the place after it. -/
def readName (p : Cursor) : Option (String × Cursor) :=
  let (name, p) := p.take isWordChar
  if name.isEmpty then none else some (String.ofList name, p)

/-- The name of the anchor or alias that begins here with its mark. -/
def readAnchor (p : Cursor) : Option (String × Cursor) := do
  let (name, p) ← readName p.next
  if p.here.all fun c => isGap c || "?:,]\x7d%@`".toList.contains c then some (name, p) else none

/-- Whether the character may stand in a tag. -/
def isTagChar (c : Char) : Bool := c.isAlphanum || "-;/?:@&=+$,_.!~*'()[]".toList.contains c

/-- The bytes that percent signs and two digits each write here, in at most
`n` steps. -/
def readBytes : Nat → Cursor → Option (List UInt8 × Cursor)
  | 0, p => some ([], p)
  | n + 1, p =>
      match p.rest with
      | '%' :: a :: b :: _ => do
          let byte := 16 * (← Value.hexValue? a) + (← Value.hexValue? b)
          let (more, p) ← readBytes n (p.advance 3)
          return (byte.toUInt8 :: more, p)
      | '%' :: _ => none
      | _ => some ([], p)

/-- The characters of a tag from here on, in at most `n` steps. -/
def readTagChars : Nat → Cursor → Option (List Char × Cursor)
  | 0, p => some ([], p)
  | n + 1, p => do
      let (text, p) := p.take isTagChar
      if p.here = some '%' then
        let (bytes, p) ← readBytes p.rest.length p
        let shown ← String.fromUTF8? ⟨bytes.toArray⟩
        let (rest, p) ← readTagChars n p
        return (text ++ shown.toList ++ rest, p)
      else return (text, p)

/-- The rest of a tag, at least one character, and the place after it. -/
def readTagText (p : Cursor) : Option (String × Cursor) := do
  let (text, q) ← readTagChars (p.rest.length + 1) p
  if q.index = p.index then none else some (String.ofList text, q)

/-- The shorthand that begins here with an exclamation mark. Alone it is a
shorthand before a space only. -/
def readHandle (p : Cursor) : Option (String × Cursor) := do
  if p.here ≠ some '!' then none
  if p.ahead 1 = some ' ' then return ("!", p.next)
  let (name, q) := p.next.take isWordChar
  if q.here = some '!' then return ("!" ++ String.ofList name ++ "!", q.next) else none

/-- Whether nothing more belongs to a tag or to a directive here. -/
def endsHere (p : Cursor) : Bool := p.here.all fun c => c = ' ' || isBreak c

/-- The tag that begins here with its mark. -/
def readTag (p : Cursor) : Option (Token × Cursor) := do
  let (token, p) ← match p.ahead 1 with
    | some '<' => do
        let (text, p) ← readTagText (p.advance 2)
        if p.here = some '>' then pure (tag none text, p.next) else none
    | c =>
        if c.all isGap then pure (tag none "!", p.next)
        else do
          let (word, _) := p.next.take fun c => c ≠ ' ' && !isBreak c
          let (handle, p) ← if word.contains '!' then readHandle p else pure ("!", p.next)
          let (text, p) ← readTagText p
          pure (tag (some handle) text, p)
  if endsHere p then some (token, p) else none

-- ======================================================== directives

/-- A whole number of at least one digit, and the place after it. -/
def readNumber (p : Cursor) : Except Refusal (Int × Cursor) := do
  let (digits, p) := p.take Char.isDigit
  if digits.isEmpty then throw .malformed
  return (← (Written.whole 10 digits).mapError .fault, p)

/-- The version after its directive's name. -/
def readVersion (p : Cursor) : Except Refusal (Directive × Cursor) := do
  let (major, p) ← readNumber p.skipSpaces
  if p.here ≠ some '.' then throw .malformed
  let (_, p) ← readNumber p.next
  if endsHere p then return (.version major, p) else throw .malformed

/-- The shorthand and its meaning after their directive's name. -/
def readShorthand (p : Cursor) : Option (Directive × Cursor) := do
  let (handle, p) ← readHandle p.skipSpaces
  if p.here ≠ some ' ' then none
  let (lead, p) ← readTagText p.skipSpaces
  if endsHere p then some (.shorthand handle lead, p) else none

/-- The directive that begins here with its mark, and the place after its
line. -/
def readDirective (p : Cursor) : Except Refusal (Token × Cursor) := do
  let some (name, p) := readName p.next | throw .malformed
  if !endsHere p then throw .malformed
  let (d, p) ← match name with
    | "YAML" => readVersion p
    | "TAG" => (readShorthand p).elim (throw .malformed) pure
    | _ => pure (.other, p.skip (!isBreak ·))
  match p.skipLine? with
  | some p => return (directive d, p)
  | none => throw .malformed

end Token

end Depot.Yaml
