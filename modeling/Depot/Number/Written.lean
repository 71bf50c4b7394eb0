/-
Numbers as texts write them. Around a number there may be blanks, in
front of it a sign, and its digits may be of any script. A whole number
may be of another base and begin with the mark of that base; one of base
ten has a greatest length, zeros in front counted.
-/
import Depot.Fault
import Depot.Number.Extended
import Depot.Text.Basic
import Depot.Text.Blank
import Depot.Text.Digit

namespace Depot.Written

/-- A number as a text writes it, character by character. -/
abbrev Chars := List Char

-- ============================================================= parts

/-- A number without its sign, and whether that is a minus. -/
def unsigned : Chars → Bool × Chars
  | '-' :: rest => (true, rest)
  | '+' :: rest => (false, rest)
  | cs => (false, cs)

/-- A decimal digit of any script as the one from 0 to 9 of its value;
other characters stay. -/
def plainDigit (c : Char) : Char := (Text.decimalValue? c).elim c fun d => Char.ofNat (48 + d)

/-- A number without the blanks around it, in plain digits. -/
def trimmed (cs : Chars) : Chars := Text.strip Text.isBlank (cs.map plainDigit)

/-- The number that plain digits write. -/
def ofDigits (digits : Chars) : Nat := digits.foldl (fun n d => 10 * n + (d.toNat - 48)) 0

/-- A text as messages about numbers show it. -/
def shown (cs : Chars) : String := (Value.str (String.ofList cs)).quotedLabel

-- ===================================================== whole numbers

/-- The most digits of a whole number of base ten. -/
def mostDigits : Nat := 4300

/-- The fault of a whole number with more digits. -/
def tooManyDigits (count : Nat) : Fault :=
  .badValue (s!"Exceeds the limit ({mostDigits} digits) for integer string conversion: " ++
    s!"value has {count} digits; use sys.set_int_max_str_digits() to increase the limit")

/-- The fault of writing a whole number with more digits. -/
def tooLongToWrite : Fault :=
  .badValue (s!"Exceeds the limit ({mostDigits} digits) for integer string conversion; " ++
    "use sys.set_int_max_str_digits() to increase the limit")

/-- Whether a whole number has no more digits. -/
def isWritable (n : Int) : Bool := (Nat.toDigits 10 n.natAbs).length ≤ mostDigits

/-- The longest text that the message about one that is no whole number
shows. -/
def mostShown : Nat := 200

/-- The fault of a text that is no whole number of a base. -/
def noWhole (base : Nat) (cs : Chars) : Fault :=
  let shown := String.ofList ((shown cs).toList.take mostShown)
  .badValue s!"invalid literal for int() with base {base}: {shown}"

/-- The value of a digit, of which letters are those from ten on. -/
def digitValue? (c : Char) : Option Nat :=
  if c.isDigit then some (c.toNat - 48)
  else if 'a' ≤ c ∧ c ≤ 'z' then some (c.toNat - 87)
  else if 'A' ≤ c ∧ c ≤ 'Z' then some (c.toNat - 55)
  else none

/-- The letters that mark a base after a zero. -/
def baseMarks (base : Nat) : List Char :=
  match base with
  | 2 => ['b', 'B']
  | 8 => ['o', 'O']
  | 16 => ['x', 'X']
  | _ => []

/-- A number without the mark of its base. -/
def unmarked (base : Nat) (cs : Chars) : Chars :=
  match cs with
  | '0' :: mark :: rest => if (baseMarks base).contains mark then rest else cs
  | _ => cs

/-- The number that digits of a base write, at least one of them. -/
def ofDigits? (base : Nat) (cs : Chars) : Option Nat :=
  if cs.isEmpty then none
  else cs.foldl (fun acc c => do
    let d ← digitValue? c
    if d < base then return base * (← acc) + d else none) (some 0)

/-- The whole number of a base that a text writes. -/
def whole (base : Nat) (cs : Chars) : Except Fault Int := do
  let (negative, rest) := unsigned (trimmed cs)
  let digits := unmarked base rest
  let count := (digits.takeWhile Char.isDigit).length
  if base = 10 ∧ mostDigits < count then throw (tooManyDigits count)
  match ofDigits? base digits with
  | some n => return if negative then -(n : Int) else n
  | none => throw (noWhole base cs)

-- ========================================================= fractions

/-- The digits and the scale of a number with a point or an exponent, or
with neither. -/
def decimal? (cs : Chars) : Option (Nat × Int) := do
  let (front, rest) := cs.span Char.isDigit
  let (back, rest) := match rest with
    | '.' :: rest => rest.span Char.isDigit
    | _ => ([], rest)
  if front.isEmpty && back.isEmpty then none
  let exponent ← match rest with
    | [] => some (0 : Int)
    | e :: rest => do
        let (negative, digits) := unsigned rest
        if (e ≠ 'e' ∧ e ≠ 'E') ∨ digits.isEmpty ∨ !digits.all Char.isDigit then none
        else some (if negative then -(ofDigits digits : Int) else ofDigits digits)
  return (ofDigits (front ++ back), exponent - back.length)

/-- The fraction that a text writes, in digits or as a word. -/
def fraction (cs : Chars) : Except Fault Extended := do
  let (negative, digits) := unsigned (trimmed cs)
  let size ← match (String.ofList digits).toLower with
    | "inf" | "infinity" => pure (.infinite false)
    | "nan" => pure .noNumber
    | _ =>
        match decimal? digits with
        | some (n, scale) => pure (Extended.ofRounded false (Double.ofDecimal? false n scale))
        | none => throw (.badValue s!"could not convert string to float: {shown cs}")
  return if negative then size.neg else size

end Depot.Written
