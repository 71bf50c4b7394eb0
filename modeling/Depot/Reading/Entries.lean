/-
Reading the data of a document into models. The keys of such data need
not be texts, and a key that is none belongs to no model: it is reported
where it stands among the keys that the model does not have.
-/
import Depot.Data
import Depot.Reading.Scalar

namespace Depot.Reading

variable {α : Type}

-- ===================================================== single values

/-- The value to read where a single value is asked for. What a document
alone can hold is refused by every such reader, as a list is. -/
def single : Data → Value
  | .value v => v
  | _ => .list []

/-- Data that may be missing or null. -/
def optionalData (read : Data → Reading α) : Option Data → Reading (Option α)
  | none | some (.value .null) => .ok none
  | some d => some <$> read d

/-- A text. Bytes count as the characters that they encode. -/
def textOf : Data → Reading String
  | .bytes bs => match Binary.text? bs with
      | some s => .ok s
      | none => refuse (textMessage ++ ", unable to parse raw data as a unicode string")
  | d => text (single d)

/-- A whole number that is not negative. -/
def naturalOf : Data → Reading Int
  | .foreign ⟨"float", _, _⟩ => refuse "Input should be a finite number"
  | .bytes bs => natural (.str ((Binary.text? bs).getD ""))
  | d => natural (single d)

-- ========================================================== mappings

/-- A part of a mapping, read by `read`, which is given nothing if the
mapping lacks the key. -/
def part (es : Data.Entries) (key : String) (read : Option Data → Reading α) : Reading α :=
  (read (es.get? key)).under key

/-- A mapping of texts to texts. A key is read before its value. -/
def textsByText (d : Data) : Reading Fields :=
  match d.entries? with
  | some es => all (es.map fun (k, v) =>
      let place := k.display
      (fun key text => (key, Value.str text)) <$> (textOf k).under place <*> (textOf v).under place)
  | none => refuse "Input should be a valid dictionary"

/-- A model read from a mapping. -/
def modelOf (name : String) (read : Data.Entries → Reading α) (d : Data) : Reading α :=
  match d.entries? with
  | some es => read es
  | none => refuse s!"Input should be a valid dictionary or instance of {name}"

/-- The place of a key that is no text: a number by its digits, anything
else as a structure shows it. -/
def keyPlace : Data → String
  | .value (.bool b) => if b then "1" else "0"
  | d => String.ofList d.displayChars

/-- What is wrong with a key, unless it is one of those known. -/
def keyIssue? (known : List String) : Data → Option FieldIssue
  | .value (.str key) => if key ∈ known then none else some ⟨[key], extraMessage⟩
  | key => some ⟨[keyPlace key], "Keys should be strings"⟩

/-- A reading of a mapping that may have no other keys than those known.
The issues of the known ones come first. -/
def closedTo (known : List String) (es : Data.Entries) (r : Reading α) : Reading α :=
  match r, es.filterMap fun (k, _) => keyIssue? known k with
  | .ok a, [] => .ok a
  | r, unknown => .wrong (r.issues ++ unknown)

end Depot.Reading
