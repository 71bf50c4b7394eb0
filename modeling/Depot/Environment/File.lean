/-
Files of environment variables. A file holds bindings: a name, and after
an equals sign its value, plain up to a comment or between quotes, where
it may go on over several lines. What is no binding is passed over to
the end of its line.

A value may refer to variables bound earlier in the file and to those of
the process, and may say what stands in for one that is missing. A name
without an equals sign takes back what was bound to it.
-/
import Depot.Table
import Depot.Text.Basic
import Depot.Text.Blank

namespace Depot.Environment.File

/-- The text of a file, character by character. -/
abbrev Chars := List Char

/-- What a name is bound to; nothing if its binding is taken back. -/
abbrev Bindings := Table (Option String)

/-- A blank within a line. -/
def isInline (c : Char) : Bool := Text.isSpacing c && c ≠ '\n' && c ≠ '\r'

/-- Whether the character does not end a line. -/
def isOnLine (c : Char) : Bool := c ≠ '\n' && c ≠ '\r'

-- ============================================================ quotes

/-- The text after an opening quote, and what follows the closing one. A
character that a backslash precedes, be it a quote or another backslash,
closes nothing and escapes nothing. -/
def readQuoted? (quote : Char) : Chars → Option (Chars × Chars)
  | [] => none
  | '\\' :: c :: rest => (readQuoted? quote rest).map fun (t, r) => ('\\' :: c :: t, r)
  | c :: rest =>
      if c = quote then some ([], rest) else (readQuoted? quote rest).map fun (t, r) => (c :: t, r)

/-- The character of an escape between quotes. -/
def escaped? (quote : Char) (c : Char) : Option Char :=
  if c = '\\' || c = '\'' then some c
  else if quote ≠ '"' then none
  else match c with
    | '"' => some '"'
    | 'a' => some '\x07'
    | 'b' => some '\x08'
    | 'f' => some '\x0c'
    | 'n' => some '\n'
    | 'r' => some '\r'
    | 't' => some '\t'
    | 'v' => some '\x0b'
    | _ => none

/-- A text with its escapes replaced. -/
def unescaped (quote : Char) : Chars → Chars
  | '\\' :: c :: rest =>
      match escaped? quote c with
      | some d => d :: unescaped quote rest
      | none => '\\' :: unescaped quote (c :: rest)
  | c :: rest => c :: unescaped quote rest
  | [] => []

-- ========================================================== bindings

/-- A part of a binding and what follows it, or what is left where it
fails. -/
abbrev Part (α : Type) := Except Chars (α × Chars)

/-- The rest after a word and the blanks that have to follow it, if it
stands there. -/
def afterExport (cs : Chars) : Chars :=
  let word := "export".toList
  let rest := cs.drop word.length
  if word.isPrefixOf cs && rest.head?.any isInline then rest.dropWhile isInline else cs

/-- The name of a binding; none before a comment. -/
def readName (cs : Chars) : Part (Option String) :=
  let found := match cs with
    | '#' :: _ => some (none, cs)
    | '\'' :: rest =>
        let (name, after) := rest.span (· ≠ '\'')
        if name.isEmpty || after.isEmpty then none else some (some name, after.drop 1)
    | _ =>
        let (name, after) := cs.span fun c => c ≠ '=' && c ≠ '#' && !Text.isSpacing c
        if name.isEmpty then none else some (some name, after)
  match found with
  | some (name, rest) => .ok (name.map String.ofList, rest)
  | none => .error cs

/-- A value without quotes: what stands before a comment, which a blank
precedes. -/
def plain : Chars → Chars
  | [] => []
  | c :: rest =>
      if Text.isSpacing c && (rest.dropWhile Text.isSpacing).head? = some '#' then []
      else c :: plain rest

/-- The value after an equals sign. Between blanks and a comment it is
empty; without a blank in front a hash is part of it. -/
def readValue (cs : Chars) : Part String :=
  let afterBlanks := cs.dropWhile isInline
  match afterBlanks with
  | [] => .ok ("", [])
  | c :: rest =>
      if c = '#' && cs.head?.any isInline then .ok ("", afterBlanks)
      else if c = '"' || c = '\'' then
        match readQuoted? c rest with
        | some (text, rest) => .ok (String.ofList (unescaped c text), rest)
        | none => .error afterBlanks
      else
        let (line, rest) := afterBlanks.span isOnLine
        .ok (String.ofList (Text.dropTrailing Text.isSpacing (plain line)), rest)

/-- The end of a binding's line, after blanks and a comment. -/
def readEnd (cs : Chars) : Part Unit :=
  let rest := cs.dropWhile isInline
  let rest := if rest.head? = some '#' then rest.dropWhile isOnLine else rest
  match rest with
  | [] => .ok ((), [])
  | c :: after => if isOnLine c then .error rest else .ok ((), after)

/-- One binding, after the blanks in front of it. -/
def readBinding (cs : Chars) : Except Chars (Option (String × Option String) × Chars) := do
  let (name, rest) ← readName (afterExport cs)
  let (value, rest) ← match rest.dropWhile isInline with
    | '=' :: rest => do
        let (value, rest) ← readValue rest
        pure (some value, rest)
    | rest => pure (none, rest)
  let (_, rest) ← readEnd rest
  return (name.map fun name => (name, value), rest)

/-- The bindings of a text in order, at most `n` of them. -/
def bindingsFrom : Nat → Chars → List (String × Option String)
  | 0, _ => []
  | n + 1, cs =>
      match cs.dropWhile Text.isSpacing with
      | [] => []
      | cs =>
          match readBinding cs with
          | .ok (binding, rest) => binding.toList ++ bindingsFrom n rest
          | .error rest => bindingsFrom n ((rest.dropWhile isOnLine).drop 1)

-- ======================================================== references

/-- A reference at the start of a text: its name, what stands in for it,
and what follows. -/
def readReference? (cs : Chars) : Option (String × String × Chars) := do
  let '$' :: '\x7b' :: cs := cs | none
  let (name, rest) := cs.span fun c => c ≠ '\x7d' && c ≠ ':'
  match rest with
  | '\x7d' :: rest => some (String.ofList name, "", rest)
  | ':' :: '-' :: rest =>
      let (standIn, rest) := rest.span (· ≠ '\x7d')
      if rest.isEmpty then none
      else some (String.ofList name, String.ofList standIn, rest.drop 1)
  | _ => none

/-- A text with its references replaced, in at most `n` steps. -/
def resolvedFrom (valueOf : String → Option String) : Nat → Chars → String
  | 0, cs => String.ofList cs
  | n + 1, cs =>
      match cs, readReference? cs with
      | [], _ => ""
      | _, some (name, standIn, rest) =>
          (valueOf name).getD standIn ++ resolvedFrom valueOf n rest
      | c :: rest, none => String.singleton c ++ resolvedFrom valueOf n rest

/-- The value of a name: as bound in the file, else as in the process. One
that is taken back is empty. -/
def valueIn (process : List (String × String)) (bound : Bindings) (name : String) :
    Option String :=
  match bound.lookup name with
  | some value => some (value.getD "")
  | none => process.reverse.lookup name

/-- The bindings one after the other, with references replaced. -/
def resolve (process : List (String × String)) (bindings : List (String × Option String)) :
    Bindings :=
  bindings.foldl (fun bound (name, value) =>
    let resolved := value.map fun text =>
      resolvedFrom (valueIn process bound) (text.length + 1) text.toList
    Table.put name resolved bound) []

/-- What a file binds in a process. A byte order mark may begin the
file. -/
def read (process : List (String × String)) (text : String) : Bindings :=
  let cs := Text.withLineFeeds text.toList
  let cs := if cs.head? = some '\ufeff' then cs.drop 1 else cs
  resolve process (bindingsFrom (cs.length + 1) cs)

end Depot.Environment.File
