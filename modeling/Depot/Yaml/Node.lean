/-
The nodes of a document: scalars, lists and mappings with their tags. An
alias is the node that its anchor names; one that stands inside that very
node closes a loop, which is all that can be said of it.

Nodes are read from tokens by one function for each kind of collection.
The fuel is a multiple of the number of tokens: between two calls of
which one is inside the other a token is taken.
-/
import Depot.Yaml.Lexer
import Depot.Yaml.Scalar

namespace Depot.Yaml

/-- A node of a document. -/
inductive Node where
  | scalar (tag text : String)
  | sequence (tag : String) (items : List Node)
  | mapping (tag : String) (entries : List (Node × Node))
  /-- A node inside itself. -/
  | loop

instance : Inhabited Node := ⟨.loop⟩

namespace Tag

/-- What the tags of the standard begin with. -/
def standardLead : String := "tag:yaml.org,2002:"

/-- The tag of a kind of the standard. -/
def ofKind (kind : String) : String := standardLead ++ kind

/-- The kind of the standard that a tag names. -/
def kind? (tag : String) : Option String :=
  if standardLead.toList.isPrefixOf tag.toList then
    some (String.ofList (tag.toList.drop standardLead.length))
  else none

/-- Whether a tag names a kind of collection. -/
def isCollection (tag : String) : Bool :=
  (kind? tag).any ["seq", "map", "set", "omap", "pairs"].contains

end Tag

namespace Node

/-- The kind of the standard that a node's tag names. -/
def kind? : Node → Option String
  | .scalar tag _ | .sequence tag _ | .mapping tag _ => Tag.kind? tag
  | .loop => none

/-- The scalar that stands where nothing is written. -/
def empty : Node := .scalar (Tag.ofKind "null") ""

-- ======================================================= merged nodes

/-- Other mappings' entries that a value of a merge key stands for: those
of a mapping, or of a list of mappings, of which earlier ones count
more. -/
def mergedEntries? : Node → Option (List (Node × Node))
  | .mapping _ entries => some entries
  | .sequence _ items => do
      let parts ← items.mapM fun
        | .mapping _ entries => some entries
        | _ => none
      return parts.reverse.flatten
  | _ => none

/-- A key, with the mark that only counts as a key made a text. -/
def asKey : Node → Node
  | .scalar tag text =>
      if Tag.kind? tag = some "value" then .scalar (Tag.ofKind "str") text else .scalar tag text
  | node => node

/-- A mapping's entries with those of its merge keys put in front, where
its own override them; nothing if a merge key has no mappings. -/
def withMerged? (entries : List (Node × Node)) : Option (List (Node × Node)) := do
  let (merging, own) := entries.partition fun (k, _) => k.kind? = some "merge"
  let merged ← merging.mapM fun (_, v) => mergedEntries? v
  return merged.flatten ++ own.map fun (k, v) => (asKey k, v)

/-- A mapping. Where its tag asks for a single value, it stands for the
one under the mark that only counts as a key. A merge key without
mappings is left as it is, and no data can be made of it. -/
def ofEntries (tag : String) (entries : List (Node × Node)) : Node :=
  if Tag.isCollection tag then
    .mapping tag ((withMerged? entries).getD ((loop, loop) :: entries))
  else
    match entries.find? fun (k, _) => k.kind? = some "value" with
    | some (_, .scalar _ text) => .scalar tag text
    | _ => .mapping tag entries

end Node

-- =========================================================== reading

/-- The shorthands that need no directive. -/
def Tag.usualShorthands : List (String × String) := [("!", "!"), ("!!", standardLead)]

/-- The state of reading nodes: the tokens that are left, what is wrong
behind them, the anchors with their nodes, which are not there yet while
they are being read, the shorthands for tags, and how many collections
are open. -/
structure Composing where
  tokens : List Token
  refusal : Option Refusal
  anchors : List (String × Option Node) := []
  shorthands : List (String × String) := Tag.usualShorthands
  depth : Nat := 0

/-- A step of reading nodes. -/
abbrev Compose (α : Type) := StateT Composing (Except Refusal) α

namespace Compose

/-- The refusal of what breaks the rules. -/
def malformed {α : Type} : Compose α := throw .malformed

/-- The next token; none at the end. -/
def peek : Compose (Option Token) := do
  let s ← get
  match s.tokens, s.refusal with
  | t :: _, _ => return some t
  | [], none => return none
  | [], some refusal => throw refusal

/-- Passes over the next token. -/
def drop : Compose Unit := modify fun s => { s with tokens := s.tokens.tail }

/-- Passes over the next token if it is a certain one, and tells whether
it was. -/
def dropIf (t : Token) : Compose Bool := do
  if (← peek) = some t then
    drop
    return true
  else return false

/-- Whether the next token is one of some. -/
def isNext (ts : List Token) : Compose Bool := return (← peek).any ts.contains

/-- The anchor that comes next, if one does. -/
def readAnchor : Compose (Option String) := do
  match ← peek with
  | some (.anchor name) =>
      drop
      return some name
  | _ => return none

/-- The tag that comes next, if one does: its shorthand and the rest. -/
def readTag : Compose (Option (Option String × String)) := do
  match ← peek with
  | some (.tag handle rest) =>
      drop
      return some (handle, rest)
  | _ => return none

/-- The tag in full. -/
def fullTag : Option String × String → Compose String
  | (none, text) => return text
  | (some handle, rest) => do
      match (← get).shorthands.lookup handle with
      | some lead => return lead ++ rest
      | none => malformed

/-- The anchor and the tag that come next, in either order. -/
def readProperties : Compose (Option String × Option String) := do
  let anchor ← readAnchor
  let tag ← readTag
  let anchor ← if anchor.isNone && tag.isSome then readAnchor else pure anchor
  return (anchor, ← tag.mapM fullTag)

/-- The node of an alias. -/
def ofAlias (name : String) : Compose Node := do
  match (← get).anchors.lookup name with
  | some (some node) => return node
  | some none => return .loop
  | none => malformed

/-- The tag that leaves the kind open. -/
def openTag : String := "!"

/-- The tag of a collection. -/
def collectionTag (tag : Option String) (kind : String) : String :=
  match tag with
  | some tag => if tag = openTag then Tag.ofKind kind else tag
  | none => Tag.ofKind kind

/-- A scalar. Only a plain one without a tag, or one whose tag leaves the
kind open, is of the kind that it is written like. -/
def ofScalar (tag : Option String) (text : String) (plain : Bool) : Node :=
  match tag with
  | some tag => .scalar (if tag = openTag then Tag.ofKind (Scalar.kindOf text) else tag) text
  | none => .scalar (Tag.ofKind (if plain then Scalar.kindOf text else "str")) text

/-- The deepest that collections may be nested. -/
def mostLevels : Nat := 490

/-- The content of a collection. -/
def inside {α : Type} (content : Compose α) : Compose α := do
  let depth := (← get).depth
  if mostLevels ≤ depth then
    throw (.fault (.system "RecursionError" "maximum recursion depth exceeded"))
  modify fun s => { s with depth := depth + 1 }
  let a ← content
  modify fun s => { s with depth := depth }
  return a

mutual
/-- The node that comes next. Collections by indentation are nodes if
`block` holds, and a list at the indentation of its key if `flat` does. -/
def node (block flat : Bool) : Nat → Compose Node
  | 0 => malformed
  | n + 1 => do
      match ← peek with
      | some (.alias name) =>
          drop
          ofAlias name
      | _ =>
          let (anchor, tag) ← readProperties
          discard peek
          if let some name := anchor then
            if ((← get).anchors.lookup name).isSome then malformed
            modify fun s => { s with anchors := (name, none) :: s.anchors }
          let given := anchor.isSome || tag.isSome
          let node ← content block flat given tag n
          if let some name := anchor then
            modify fun s => { s with anchors := (name, some node) :: s.anchors }
          return node
/-- The content of a node with a tag; nothing may be written for it if an
anchor or a tag is given. -/
def content (block flat given : Bool) (tag : Option String) : Nat → Compose Node
  | 0 => malformed
  | n + 1 => do
      let list := .sequence (collectionTag tag "seq")
      let table := Node.ofEntries (collectionTag tag "map")
      match ← peek with
      | some .item => if flat then list <$> inside (flatItems n) else nothing
      | some (.scalar text plain) =>
          drop
          return ofScalar tag text plain
      | some .flowSequence =>
          drop
          list <$> inside (flowItems true n)
      | some .flowMapping =>
          drop
          table <$> inside (flowEntries true n)
      | some .blockSequence =>
          if !block then nothing
          else
            drop
            list <$> inside (blockItems n)
      | some .blockMapping =>
          if !block then nothing
          else
            drop
            table <$> inside (blockEntries n)
      | _ => nothing
where
  /-- The node where nothing is written. -/
  nothing : Compose Node := if given then return ofScalar tag "" true else malformed
/-- The node that comes next, or an empty one before some tokens. -/
def nodeUnless (ends : List Token) (block flat : Bool) : Nat → Compose Node
  | 0 => malformed
  | n + 1 => do
      if ← isNext ends then return .empty
      node block flat n
/-- The items up to the end of a list by indentation. -/
def blockItems : Nat → Compose (List Node)
  | 0 => malformed
  | n + 1 => do
      if ← dropIf .item then
        let first ← nodeUnless [.item, .blockEnd] true false n
        return first :: (← blockItems n)
      else if ← dropIf .blockEnd then return []
      else malformed
/-- The items of a list at the indentation of its key. -/
def flatItems : Nat → Compose (List Node)
  | 0 => malformed
  | n + 1 => do
      if ← dropIf .item then
        let first ← nodeUnless [.item, .key, .value, .blockEnd] true false n
        return first :: (← flatItems n)
      else return []
/-- The value after a key, if there is one. -/
def valueAfter (ends : List Token) (block flat : Bool) : Nat → Compose Node
  | 0 => malformed
  | n + 1 => do
      if ← dropIf .value then nodeUnless ends block flat n else return .empty
/-- The entries up to the end of a mapping by indentation. -/
def blockEntries : Nat → Compose (List (Node × Node))
  | 0 => malformed
  | n + 1 => do
      if ← dropIf .key then
        let key ← nodeUnless [.key, .value, .blockEnd] true true n
        let value ← valueAfter [.key, .value, .blockEnd] true true n
        return (key, value) :: (← blockEntries n)
      else if ← dropIf .blockEnd then return []
      else malformed
/-- The items up to the end of a list in brackets. A key there begins a
mapping of one entry. -/
def flowItems (first : Bool) : Nat → Compose (List Node)
  | 0 => malformed
  | n + 1 => do
      if ← dropIf .flowSequenceEnd then return []
      if !first then
        if !(← dropIf .comma) then malformed
      if ← dropIf .flowSequenceEnd then return []
      let item ← if ← dropIf .key then inside do
          let key ← nodeUnless [.value, .comma, .flowSequenceEnd] false false n
          let value ← valueAfter [.comma, .flowSequenceEnd] false false n
          pure (Node.ofEntries (Tag.ofKind "map") [(key, value)])
        else node false false n
      return item :: (← flowItems false n)
/-- The entries up to the end of a mapping in braces. Without a mark in
front an entry has no value. -/
def flowEntries (first : Bool) : Nat → Compose (List (Node × Node))
  | 0 => malformed
  | n + 1 => do
      if ← dropIf .flowMappingEnd then return []
      if !first then
        if !(← dropIf .comma) then malformed
      if ← dropIf .flowMappingEnd then return []
      let entry ← if ← dropIf .key then
          let key ← nodeUnless [.value, .comma, .flowMappingEnd] false false n
          let value ← valueAfter [.comma, .flowMappingEnd] false false n
          pure (key, value)
        else do pure (← node false false n, Node.empty)
      return entry :: (← flowEntries false n)
end

-- ========================================================= documents

/-- Reads the directives in front of a document. A version or a shorthand
must not be given twice, and only the first version is known. -/
def directives (versionGiven : Bool) (given : List (String × String)) : Nat → Compose Unit
  | 0 => malformed
  | n + 1 => do
      match ← peek with
      | some (.directive d) =>
          drop
          match d with
          | .version major =>
              if versionGiven || major ≠ 1 then malformed else directives true given n
          | .shorthand handle lead =>
              if (given.lookup handle).isSome then malformed
              else directives versionGiven ((handle, lead) :: given) n
          | .other => directives versionGiven given n
      | _ => modify fun s => { s with shorthands := given ++ Tag.usualShorthands }

/-- Passes over the marks that end a document, at most `n` of them. -/
def dropEnds : Nat → Compose Unit
  | 0 => malformed
  | n + 1 => do if ← dropIf .documentEnd then dropEnds n

/-- The node of the only document, and null if there is none. A document
needs no mark in front of it unless there are directives or the end of
another one. -/
def document : Compose Node := do
  let fuel := 4 * (← get).tokens.length + 4
  let node ← match ← peek with
    | none => return .empty
    | some (.directive _) | some .documentStart => do
        directives false [] fuel
        if !(← dropIf .documentStart) then malformed
        match ← peek with
        | none | some (.directive _) | some .documentStart | some .documentEnd => pure .empty
        | _ => node true false fuel
    | _ => node true false fuel
  dropEnds fuel
  match ← peek with
  | none => return node
  | some (.directive _) => do
      directives false [] fuel
      malformed
  | some _ => malformed

end Compose

/-- The node of a document with some tokens. -/
def Node.ofTokens (ts : Tokens) : Except Refusal Node :=
  (Compose.document.run { tokens := ts.tokens, refusal := ts.refusal }).map Prod.fst

end Depot.Yaml
