/-
From the text of a document to its tokens. Collections by indentation
open where an item or a key stands further in than what is around it,
and close where something stands further out. Within brackets the
indentation does not count.

That a scalar or a collection is a key shows only at the colon after it.
So whatever may be a key is remembered, one for each level of brackets,
until its line ends or it grows too long; at a colon the marks of the
key are put in front of it.

A text that cannot be read to its end still has the tokens in front of
the place where it goes wrong: what is made of them may go wrong first.
-/
import Depot.Yaml.Block
import Depot.Yaml.Plain
import Depot.Yaml.Token

namespace Depot.Yaml

/-- Something that may turn out to be a key: the place of its first token
among the tokens, where it stands in the text, and whether nothing but a
key may stand there. -/
structure MaybeKey where
  position : Nat
  place : Cursor
  required : Bool

/-- The state of reading tokens. -/
structure Lexing where
  place : Cursor
  tokens : Array Token := #[]
  /-- How many brackets are open. -/
  brackets : Nat := 0
  /-- The indentation of the innermost collection; -1 outside of all. -/
  indent : Int := -1
  /-- The indentations of the collections around it, innermost first. -/
  outer : List Int := []
  /-- Whether a key may begin at the next token. -/
  mayBegin : Bool := true
  keys : List (Nat × MaybeKey) := []

/-- A step of reading tokens. -/
abbrev Lex (α : Type) := StateT Lexing (Except Refusal) α

namespace Lexing

/-- The longest that a key may be. -/
def longestKey : Nat := 1024

-- ============================================================== keys

/-- Whether something can be a key no more: it ended with its line, or has
grown too long. -/
def isStale (s : Lexing) (e : Nat × MaybeKey) : Bool :=
  let begun := e.2.place
  begun.line ≠ s.place.line || begun.index + longestKey < s.place.index

/-- Forgets what can be a key no more. -/
def dropStale : Lex Unit := do
  let s ← get
  if s.keys.any fun e => isStale s e && e.2.required then throw .malformed
  set { s with keys := s.keys.filter fun e => !isStale s e }

/-- Forgets what might have been a key at this level of brackets. -/
def forgetKey : Lex Unit := do
  let s ← get
  if (s.keys.lookup s.brackets).any MaybeKey.required then throw .malformed
  set { s with keys := s.keys.filter (·.1 ≠ s.brackets) }

/-- Remembers that a key may begin at the next token. -/
def noteKey : Lex Unit := do
  if (← get).mayBegin then
    forgetKey
    modify fun s =>
      let required := s.brackets = 0 && decide (s.indent = (s.place.column : Int))
      { s with keys := (s.brackets, ⟨s.tokens.size, s.place, required⟩) :: s.keys }

-- ======================================================= indentation

/-- Adds a token. -/
def push (t : Token) : Lex Unit := modify fun s => { s with tokens := s.tokens.push t }

/-- Adds a token that was read here, and goes on after it. -/
def pushRead (t : Token) (after : Cursor) : Lex Unit :=
  modify fun s => { s with tokens := s.tokens.push t, place := after }

/-- How many collections end before a column, and the indentations that
are left. -/
def closedBefore (column : Int) (indent : Int) : List Int → Nat × Int × List Int
  | [] => (0, indent, [])
  | next :: outer =>
      if column < indent then
        let (n, rest) := closedBefore column next outer
        (n + 1, rest)
      else (0, indent, next :: outer)

/-- Closes the collections that do not reach to a column. -/
def closeTo (column : Int) : Lex Unit :=
  modify fun s =>
    if s.brackets ≠ 0 then s
    else
      let (n, indent, outer) := closedBefore column s.indent s.outer
      { s with
        tokens := s.tokens ++ Array.replicate n Token.blockEnd
        indent := indent
        outer := outer }

/-- Opens a collection at a column, unless one is open there; its mark
goes to a place among the tokens. -/
def openAt (column : Nat) (mark : Token) (position : Nat) : Lex Unit :=
  modify fun s =>
    if s.brackets = 0 ∧ s.indent < (column : Int) then
      { s with
        tokens := s.tokens.insertIdxIfInBounds position mark
        indent := column
        outer := s.indent :: s.outer }
    else s

/-- Opens a collection here, unless one is open. Outside of brackets that
asks for a place where a key may begin. -/
def openHere (mark : Token) : Lex Unit := do
  let s ← get
  if s.brackets = 0 && !s.mayBegin then throw .malformed
  openAt s.place.column mark s.tokens.size

-- ============================================================ tokens

/-- A token of some characters, after which a key may begin or not. -/
def mark (t : Token) (length : Nat) (mayBegin : Bool) : Lex Unit :=
  modify fun s => { s with
    tokens := s.tokens.push t
    place := s.place.advance length
    mayBegin := mayBegin }

/-- A mark between documents. -/
def documentMark (t : Token) : Lex Unit := do
  closeTo (-1)
  forgetKey
  mark t 3 false

/-- A directive. -/
def directive : Lex Unit := do
  closeTo (-1)
  forgetKey
  let (t, p) ← Token.readDirective (← get).place
  modify fun s => { s with mayBegin := false }
  pushRead t p

/-- An opening bracket. -/
def openBracket (t : Token) : Lex Unit := do
  noteKey
  modify fun s => { s with brackets := s.brackets + 1 }
  mark t 1 true

/-- A closing bracket. -/
def closeBracket (t : Token) : Lex Unit := do
  forgetKey
  modify fun s => { s with brackets := s.brackets - 1 }
  mark t 1 false

/-- A comma in brackets. -/
def comma : Lex Unit := do
  forgetKey
  mark .comma 1 true

/-- The dash of an item. -/
def item : Lex Unit := do
  openHere .blockSequence
  forgetKey
  mark .item 1 true

/-- The question mark of a key. -/
def key : Lex Unit := do
  openHere .blockMapping
  forgetKey
  mark .key 1 ((← get).brackets = 0)

/-- The colon of a value. What is remembered at this level is its key. -/
def value : Lex Unit := do
  let s ← get
  match s.keys.lookup s.brackets with
  | some k =>
      set { s with
        keys := s.keys.filter (·.1 ≠ s.brackets)
        tokens := s.tokens.insertIdxIfInBounds k.position .key }
      openAt k.place.column .blockMapping k.position
      mark .value 1 false
  | none =>
      openHere .blockMapping
      mark .value 1 (s.brackets = 0)

/-- An anchor, an alias or a tag. -/
def property (read : Cursor → Option (Token × Cursor)) : Lex Unit := do
  noteKey
  let some (t, p) := read (← get).place | throw .malformed
  modify fun s => { s with mayBegin := false }
  pushRead t p

/-- A block scalar. -/
def block : Lex Unit := do
  forgetKey
  let s ← get
  let some (text, p) := Block.read? s.indent s.place | throw .malformed
  modify fun s => { s with mayBegin := true }
  pushRead (.scalar (String.ofList text) false) p

/-- A quoted scalar. -/
def quoted : Lex Unit := do
  noteKey
  let (text, p) ← Quoted.read (← get).place
  modify fun s => { s with mayBegin := false }
  pushRead (.scalar (String.ofList text) false) p

/-- A plain scalar. If it ends at the beginning of a line, a key may begin
there. -/
def plain : Lex Unit := do
  noteKey
  let s ← get
  let (text, leftLine, p) := Plain.read (s.brackets ≠ 0) (s.indent + 1) s.place
  modify fun s => { s with mayBegin := leftLine }
  pushRead (.scalar (String.ofList text) true) p

-- =========================================================== reading

/-- The place of the next token, and whether a line was left on the way to
it. -/
def nextToken : Nat → Cursor → Bool → Cursor × Bool
  | 0, p, left => (p, left)
  | n + 1, p, left =>
      let p := p.skipSpaces.skipComment
      match p.lineBreak? with
      | some (_, p) => nextToken n p true
      | none => (p, left)

/-- Goes to the next token. A byte order mark may begin the text. -/
def goToToken : Lex Unit :=
  modify fun s =>
    let p := if s.place.index = 0 && s.place.here = some '\ufeff' then s.place.next else s.place
    let (p, left) := nextToken (p.rest.length + 1) p false
    { s with place := p, mayBegin := s.mayBegin || (left && s.brackets = 0) }

/-- The characters that no plain scalar begins with, but for a few of them
that no blank follows. -/
def indicators : List Char := "-?:,[]\x7b\x7d#&*!|>'\"%@`".toList

/-- Whether a plain scalar begins here. -/
def beginsPlain (s : Lexing) (c : Char) : Bool :=
  let solid := !(s.place.ahead 1).all isGap
  (!isGap c && !indicators.contains c) ||
    (solid && (c = '-' || (s.brackets = 0 && (c = '?' || c = ':'))))

/-- The token that begins here with a character. -/
def token (c : Char) : Lex Unit := do
  let s ← get
  let p := s.place
  let blankNext := (p.ahead 1).all isGap
  let inBrackets := s.brackets ≠ 0
  if c = '%' && p.column = 0 then directive
  else if p.column = 0 && p.atMark ['-', '-', '-'] then documentMark .documentStart
  else if p.column = 0 && p.atMark ['.', '.', '.'] then documentMark .documentEnd
  else if c = '[' then openBracket .flowSequence
  else if c = '\x7b' then openBracket .flowMapping
  else if c = ']' then closeBracket .flowSequenceEnd
  else if c = '\x7d' then closeBracket .flowMappingEnd
  else if c = ',' then comma
  else if c = '-' && blankNext then item
  else if c = '?' && (inBrackets || blankNext) then key
  else if c = ':' && (inBrackets || blankNext) then value
  else if c = '*' then property fun p => (Token.readAnchor p).map fun (a, p) => (.alias a, p)
  else if c = '&' then property fun p => (Token.readAnchor p).map fun (a, p) => (.anchor a, p)
  else if c = '!' then property Token.readTag
  else if (c = '|' || c = '>') && !inBrackets then block
  else if c = '\'' || c = '"' then quoted
  else if beginsPlain s c then plain
  else throw .malformed

/-- Goes on by one token or, at the end of the text, closes what is open;
whether a token was read. -/
def step : Lex Bool := do
  goToToken
  dropStale
  closeTo (← get).place.column
  match (← get).place.here with
  | some c => do
      token c
      return true
  | none => do
      closeTo (-1)
      forgetKey
      modify fun s => { s with keys := [] }
      return false

/-- The state after the last token that can be read from here on, in at
most `n` steps, and what stopped the reading before the end. -/
def run : Nat → Lexing → Lexing × Option Refusal
  | 0, s => (s, some .malformed)
  | n + 1, s =>
      match StateT.run step s with
      | .ok (true, s) => run n s
      | .ok (false, s) => (s, none)
      | .error refusal => (s, some refusal)

/-- The tokens whose places are certain: those in front of all that may
still turn out to be a key. -/
def certainTokens (s : Lexing) : List Token :=
  let undecided := s.keys.filter fun e => !isStale s e
  match (undecided.map fun (_, k) => k.position).min? with
  | some n => s.tokens.toList.take n
  | none => s.tokens.toList

end Lexing

/-- The tokens of a text. Where it stops being readable, those in front
of that place are told, and what is wrong there. -/
structure Tokens where
  tokens : List Token
  refusal : Option Refusal := none

/-- The tokens of a document. -/
def Tokens.ofText (text : List Char) : Tokens :=
  if text.all isPrintable then
    let (s, refusal) := Lexing.run (text.length + 1) { place := { rest := text } }
    ⟨s.certainTokens, refusal⟩
  else ⟨[], some .malformed⟩

end Depot.Yaml
