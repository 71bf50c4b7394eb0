/-
Readers of single values. Texts and mappings have to be what they are;
truth values and whole numbers may also come as numbers or as texts that
write them.
-/
import Depot.Reading.Basic
import Depot.Text.Basic
import Depot.Text.Blank

namespace Depot.Reading

-- ============================================================= texts

/-- What is said of a text that is none. -/
def textMessage : String := "Input should be a valid string"

/-- A text. -/
def text : Value → Reading String
  | .str s => .ok s
  | _ => refuse textMessage

/-- One of some texts, each with what it stands for. -/
def oneOf {α : Type} (choices : List (String × α)) (v : Value) : Reading α :=
  match v.text?.bind fun s => choices.lookup s with
  | some a => .ok a
  | none =>
      let names := choices.map fun (name, _) => s!"'{name}'"
      let list := match names.getLast?, names.dropLast with
        | some last, [] => last
        | some last, front =>
            let front := ", ".intercalate front
            s!"{front} or {last}"
        | none, _ => ""
      refuse s!"Input should be {list}"

-- ====================================================== truth values

/-- The texts of truth values, in small letters. -/
def truthTexts : List (String × Bool) := [
  ("0", false), ("off", false), ("f", false), ("false", false), ("n", false), ("no", false),
  ("1", true), ("on", true), ("t", true), ("true", true), ("y", true), ("yes", true)]

/-- The greatest size of a fraction that is read as a whole number. -/
def sizeBound : Int := Nat.pow 2 63

/-- The whole number below the size bound that a fraction equals. -/
def boundedInteger? (x : Double) : Option Int :=
  x.integer?.bind fun n => if -sizeBound < n ∧ n < sizeBound then some n else none

/-- A truth value. -/
def truth : Value → Reading Bool
  | .bool b => .ok b
  | .int n => if -sizeBound ≤ n ∧ n < sizeBound then ofNumber n else notTruth
  | .float x => (boundedInteger? x).elim notTruth ofNumber
  | .str s =>
      match truthTexts.lookup (s.map Char.toLower) with
      | some b => .ok b
      | none => unclear
  | _ => notTruth
where
  /-- The refusal of what is no truth value. -/
  notTruth : Reading Bool := refuse "Input should be a valid boolean"
  /-- The refusal of what might have been a truth value. -/
  unclear : Reading Bool :=
    refuse "Input should be a valid boolean, unable to interpret input"
  /-- The truth value of a number. -/
  ofNumber (n : Int) : Reading Bool :=
    if n = 0 then .ok false else if n = 1 then .ok true else unclear

-- ===================================================== whole numbers

/-- Whether the character is one of 1 to 9. -/
def isCount (c : Char) : Bool := '1' ≤ c && c ≤ '9'

/-- A number from its first digit that is not zero, or from a sign behind
its zeros, on; the zeros may have underscores among them. Of nothing but
those, and of those before a point, the last one stays. -/
def withoutZeros? : List Char → Option (List Char)
  | [] => none
  | c :: rest =>
      if c = '0' then after c rest
      else if isCount c || c = '-' then some (c :: rest)
      else none
where
  /-- The number after a zero or an underscore. -/
  after (last : Char) : List Char → Option (List Char)
    | [] => some [last]
    | c :: rest =>
        if c = '0' || c = '_' then after c rest
        else if isCount c || c = '-' then some (c :: rest)
        else if c = '.' then some (last :: c :: rest)
        else none

/-- The number before a point that zeros follow, at least one. -/
def withoutZeroTail (cs : List Char) : List Char :=
  match cs.span (· ≠ '.') with
  | (whole, _ :: tail) => if !tail.isEmpty && tail.all (· = '0') then whole else cs
  | (_, []) => cs

/-- A number without the underscores that group its digits: single ones,
and none at the ends. -/
def ungrouped (cs : List Char) : List Char :=
  let atEnds := cs.head? = some '_' || cs.getLast? = some '_'
  if atEnds || Text.occursIn ['_', '_'] cs then cs else cs.filter (· ≠ '_')

/-- The plain spelling of a number written with blanks around it, a plus
sign, zeros in front, grouped digits or a tail of zeros after a point. A
minus sign stays and has no say in the rest. -/
def plainNumber? (cs : List Char) : Option (List Char) :=
  let unsigned? (cs : List Char) : Option (List Char) :=
    (withoutZeros? cs).map fun digits => ungrouped (withoutZeroTail digits)
  match Text.strip Text.isBlank cs with
  | '+' :: '-' :: _ => none
  | '+' :: rest => unsigned? rest
  | '-' :: rest => (unsigned? rest).map ('-' :: ·)
  | rest => unsigned? rest

/-- The greatest number of digits that is read. -/
def mostDigits : Nat := 4300

/-- The whole number that a plain spelling writes: digits, the first one
not zero unless it is the only one, after a minus sign or none. -/
def wholeOfPlain? (cs : List Char) : Option Int :=
  let (negative, digits) := match cs with
    | '-' :: rest => (true, rest)
    | _ => (false, cs)
  match digits with
  | [] => none
  | c :: rest =>
      if (isCount c || (c = '0' && rest.isEmpty)) && rest.all Char.isDigit
          && digits.length ≤ mostDigits then
        let n : Nat := digits.foldl (fun n d => 10 * n + (d.toNat - 48)) 0
        some (if negative then -(n : Int) else n)
      else none

/-- Whether a text begins, behind a minus sign or none, with more digits
than are read. -/
def isTooLong (cs : List Char) : Bool :=
  let digits := if cs.head? = some '-' then cs.drop 1 else cs
  digits.head?.any isCount && mostDigits < (digits.takeWhile Char.isDigit).length

/-- The message about a number that is too large to be read. -/
def tooLarge : String := "Unable to parse input string as an integer, exceeded maximum size"

/-- The message about what is no whole number. -/
def notWhole : String := "Input should be a valid integer"

/-- The whole number that a text writes. Only a text that is plain up to
its last digit is too large; another one with as many digits is none. -/
def wholeOfText (cs : List Char) : Reading Int :=
  if isTooLong cs then refuse tooLarge
  else match (plainNumber? cs).bind wholeOfPlain? with
    | some n => .ok n
    | none => refuse s!"{notWhole}, unable to parse string as an integer"

/-- A whole number. -/
def whole : Value → Reading Int
  | .int n => .ok n
  | .bool b => .ok (if b then 1 else 0)
  | .float x =>
      match x.integer?, boundedInteger? x with
      | none, _ => refuse s!"{notWhole}, got a number with a fractional part"
      | some _, none => refuse tooLarge
      | some _, some n => .ok n
  | .str s => wholeOfText s.toList
  | _ => refuse notWhole

/-- A whole number that is not negative. -/
def natural (v : Value) : Reading Int :=
  match whole v with
  | .ok n => if 0 ≤ n then .ok n else refuse "Input should be greater than or equal to 0"
  | r => r

-- ======================================================= collections

/-- A list of items, each read by `read`. -/
def many {α : Type} (read : Value → Reading α) : Value → Reading (List α)
  | .list xs => all (xs.zipIdx.map fun (v, i) => (read v).under (toString i))
  | _ => refuse "Input should be a valid tuple"

/-- A mapping of any values. -/
def mapping : Value → Reading Fields
  | .object fs => .ok fs
  | _ => refuse "Input should be a valid dictionary"

/-- A mapping whose values are read by `read`. -/
def mappingOf {α : Type} (read : Value → Reading α) : Value → Reading (List (String × α))
  | .object fs => all (fs.map fun (k, v) => ((k, ·) <$> read v).under k)
  | _ => refuse "Input should be a valid dictionary"

/-- Any value. -/
def anything (v : Value) : Reading Value := .ok v

/-- A model read from a mapping. -/
def model {α : Type} (name : String) (read : Fields → Reading α) : Value → Reading α
  | .object fs => read fs
  | _ => refuse s!"Input should be a valid dictionary or instance of {name}"

end Depot.Reading
