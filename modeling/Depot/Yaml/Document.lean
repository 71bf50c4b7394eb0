/-
The data of a document. A document is read in three steps, from its text
to tokens, to nodes and to data. The first two go hand in hand: of two
things that are wrong the one counts that is met first on the way through
the text.

Only in the last step can there be several things wrong, and then the
one that lies least deep counts, and of those the first: nodes are made
into data level by level.
-/
import Depot.Yaml.Node

namespace Depot.Yaml

/-- Something made at some depth, or what is wrong and how deep that
lies. -/
abbrev Graded (α : Type) := Except (Nat × Refusal) α

namespace Graded

/-- Two things side by side. Of two refusals the one that lies less deep
counts, or else the first. -/
def both {α β : Type} : Graded α → Graded β → Graded (α × β)
  | .ok a, .ok b => .ok (a, b)
  | .error e, .ok _ | .ok _, .error e => .error e
  | .error e, .error f => .error (if f.1 < e.1 then f else e)

/-- A refusal at a depth. -/
def refuse {α : Type} (depth : Nat) : Graded α := .error (depth, .malformed)

end Graded

namespace Node

/-- What a node inside itself is shown as. -/
def looped : Data := .foreign ⟨"list", "[...]", "[...]"⟩

/-- The refusal of a node whose form does not fit its tag. Of a collection
that shows only one level deeper, where its content is read. -/
def misformed {α : Type} (depth : Nat) (tag : String) : Graded α :=
  .refuse (if Tag.isCollection tag then depth + 1 else depth)

/-- The data of a scalar. -/
def scalarData (depth : Nat) (tag text : String) : Graded Data :=
  match Tag.kind? tag with
  | some kind =>
      if Tag.isCollection tag then misformed depth tag
      else (Scalar.read kind text).mapError (depth, ·)
  | none => .refuse depth

/-- The data of a key: only scalars can be keys. -/
def keyData (depth : Nat) : Node → Graded Data
  | .scalar tag text => if Tag.isCollection tag then .refuse depth else scalarData depth tag text
  | _ => .refuse depth

mutual
/-- The data of a node at a depth. -/
def data (depth : Nat) : Node → Graded Data
  | .scalar tag text => scalarData depth tag text
  | .sequence tag items =>
      match Tag.kind? tag with
      | some "seq" => .list <$> itemsData (depth + 1) items
      | some "omap" | some "pairs" => .list <$> pairsData (depth + 1) items
      | _ => misformed depth tag
  | .mapping tag entries =>
      match Tag.kind? tag with
      | some "map" => do
          return .mapping (Data.Entries.ofSettings (← entriesData (depth + 1) entries))
      | some "set" => do
          let es := Data.Entries.ofSettings (← entriesData (depth + 1) entries)
          return .set (es.map Prod.fst)
      | _ => misformed depth tag
  | .loop => .ok looped
/-- The data of a list's items. -/
def itemsData (depth : Nat) : List Node → Graded (List Data)
  | [] => .ok []
  | node :: rest =>
      (Graded.both (data depth node) (itemsData depth rest)).map fun (d, ds) => d :: ds
/-- The data of items that are mappings of one entry each. -/
def pairsData (depth : Nat) : List Node → Graded (List Data)
  | [] => .ok []
  | .mapping _ [(k, v)] :: rest =>
      let entry := Graded.both (data depth k) (data depth v)
      (Graded.both entry (pairsData depth rest)).map fun ((d, e), ds) => .pair d e :: ds
  | _ :: _ => .refuse depth
/-- The data of a mapping's entries. -/
def entriesData (depth : Nat) : List (Node × Node) → Graded (List (Data × Data))
  | [] => .ok []
  | (k, v) :: rest =>
      let entry := Graded.both (keyData depth k) (data depth v)
      (Graded.both entry (entriesData depth rest)).map fun (e, es) => e :: es
end

end Node

/-- The data of a document. -/
def read (text : String) : Except Refusal Data := do
  let node ← Node.ofTokens (.ofText (Text.withLineFeeds text.toList))
  (node.data 0).mapError Prod.snd

end Depot.Yaml
