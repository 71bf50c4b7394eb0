/-
What scalars mean. A plain scalar without a tag is of the kind that it
is written like: null, a truth value, a number, a point in time, or one
of two marks that only count as keys; anything else is a text. The kind
is the last part of a tag of the standard.

Whether a scalar is written like a kind is one question, which value of
the kind it is another: a tag may ask for the second without the first,
and not every number or date that can be written exists.
-/
import Depot.Calendar
import Depot.Data
import Depot.Number.Written
import Depot.Text.Case
import Depot.Yaml.Quoted

namespace Depot.Yaml.Scalar

/-- The text of a scalar, character by character. -/
abbrev Chars := List Char

-- ============================================================ digits

/-- A digit, or an underscore between digits. -/
def isDigitMark (c : Char) : Bool := c.isDigit || c = '_'

/-- Whether a text is a digit and further digits, grouped in any way. -/
def isGrouped : Chars → Bool
  | c :: rest => c.isDigit && rest.all isDigitMark
  | [] => false

/-- Whether a text is one of the numbers below 60, with one digit or
two. -/
def isSixtieth : Chars → Bool
  | [a] => a.isDigit
  | [a, b] => '0' ≤ a && a ≤ '5' && b.isDigit
  | _ => false

/-- Whether a text is a grouped number and, after colons, at least one
number below 60. -/
def isBySixties (cs : Chars) : Bool :=
  match Text.cut ':' cs with
  | first :: second :: rest => isGrouped first && (second :: rest).all isSixtieth
  | _ => false

-- ============================================================== kinds

/-- The spellings of null. -/
def nullTexts : List String := ["", "~", "null", "Null", "NULL"]

/-- The spellings of truth values. -/
def truthTexts : List String := [
  "yes", "Yes", "YES", "no", "No", "NO", "true", "True", "TRUE", "false", "False", "FALSE",
  "on", "On", "ON", "off", "Off", "OFF"]

/-- Whether a text is not empty and holds only some characters. -/
def isSomeOf (ok : Char → Bool) (cs : Chars) : Bool := !cs.isEmpty && cs.all ok

/-- Whether a text is written like a whole number: in binary, octal,
hexadecimal or decimal digits, or by sixties. -/
def isWhole (cs : Chars) : Bool :=
  match (Written.unsigned cs).2 with
  | ['0'] => true
  | '0' :: 'b' :: digits => isSomeOf (fun c => c = '0' || c = '1' || c = '_') digits
  | '0' :: 'x' :: digits => isSomeOf (fun c => (Value.hexValue? c).isSome || c = '_') digits
  | '0' :: digits => isSomeOf (fun c => ('0' ≤ c && c ≤ '7') || c = '_') digits
  | cs => isGrouped cs || isBySixties cs

/-- Whether a text is an exponent with its sign, or empty. -/
def isExponent : Chars → Bool
  | [] => true
  | e :: sign :: digits =>
      (e = 'e' || e = 'E') && (sign = '+' || sign = '-') && isSomeOf Char.isDigit digits
  | _ => false

/-- The spellings of infinity. -/
def infinityTexts : List String := [".inf", ".Inf", ".INF"]

/-- The spellings of what is no number. -/
def noNumberTexts : List String := [".nan", ".NaN", ".NAN"]

/-- Whether a text is written like a fraction: with a point, or by sixties
with a point, or as one of those that no digits write. A sign asks for a
digit in front of the point. -/
def isFraction (cs : Chars) : Bool :=
  let digits := (Written.unsigned cs).2
  let (front, back) := digits.span (· ≠ '.')
  match back with
  | [] => false
  | _ :: back =>
      let (places, exponent) := back.span isDigitMark
      if front.isEmpty then
        infinityTexts.contains (String.ofList digits) ||
          noNumberTexts.contains (String.ofList cs) ||
          (digits.length = cs.length && isGrouped places && isExponent exponent)
      else (isGrouped front && isExponent exponent) || (isBySixties front && exponent.isEmpty)

-- ====================================================== points in time

/-- A number of some digits at the start of a text. -/
def readNumber (least most : Nat) (cs : Chars) : Option (Nat × Chars) :=
  let digits := (cs.take most).takeWhile Char.isDigit
  if digits.length < least then none
  else some (digits.foldl (fun n d => 10 * n + (d.toNat - 48)) 0, cs.drop digits.length)

/-- What follows a mark at the start of a text. -/
def after (mark : Char) : Chars → Option Chars
  | c :: rest => if c = mark then some rest else none
  | [] => none

/-- The microseconds that the digits after a point write. -/
def microseconds (digits : Chars) : Nat :=
  let digits := digits.take 6
  digits.foldl (fun n d => 10 * n + (d.toNat - 48)) 0 * Nat.pow 10 (6 - digits.length)

/-- How far the clock is ahead, in minutes, as the rest of a text says. -/
def readAhead? (cs : Chars) : Option (Option Int) := do
  match cs.dropWhile isSpace with
  | [] => if cs.isEmpty then some none else none
  | ['Z'] => some (some 0)
  | sign :: rest => do
      if sign ≠ '+' ∧ sign ≠ '-' then none
      let (hours, rest) ← readNumber 1 2 rest
      let minutes ← if rest.isEmpty then some 0 else do
        let (minutes, rest) ← readNumber 2 2 (← after ':' rest)
        if rest.isEmpty then some minutes else none
      let ahead : Int := 60 * hours + minutes
      return some (if sign = '-' then -ahead else ahead)

/-- The time of day that the rest of a text writes. -/
def readClock? (cs : Chars) : Option Calendar.Clock := do
  let (hour, rest) ← readNumber 1 2 cs
  let (minute, rest) ← readNumber 2 2 (← after ':' rest)
  let (second, rest) ← readNumber 2 2 (← after ':' rest)
  let (fraction, rest) := match rest with
    | '.' :: rest => rest.span Char.isDigit
    | _ => ([], rest)
  return ⟨hour, minute, second, microseconds fraction, ← readAhead? rest⟩

/-- What follows the mark between a day and a time of day. -/
def afterDay? : Chars → Option Chars
  | c :: rest =>
      if c = 'T' || c = 't' then some rest
      else if isSpace c then some (rest.dropWhile isSpace)
      else none
  | [] => none

/-- The point in time that a text writes. -/
def moment? (cs : Chars) : Option Calendar.Moment := do
  let (year, rest) ← readNumber 4 4 cs
  let (month, rest) ← readNumber 1 2 (← after '-' rest)
  let (day, rest) ← readNumber 1 2 (← after '-' rest)
  if rest.isEmpty then return ⟨⟨year, month, day⟩, none⟩
  else return ⟨⟨year, month, day⟩, some (← readClock? (← afterDay? rest))⟩

/-- Whether a text is written like a point in time; a day alone has all of
its digits. -/
def isMoment (cs : Chars) : Bool :=
  (moment? cs).any fun m => m.clock.isSome || cs.length = 10

/-- The kind that a plain scalar is written like. -/
def kindOf (text : String) : String :=
  let cs := text.toList
  if nullTexts.contains text then "null"
  else if truthTexts.contains text then "bool"
  else if isFraction cs then "float"
  else if isWhole cs then "int"
  else if text = "<<" then "merge"
  else if isMoment cs then "timestamp"
  else if text = "=" then "value"
  else "str"

-- ============================================================= values

/-- The sum of numbers, the last one counted once and each one before it
sixty times the next. -/
def sumBySixties (parts : List Int) : Int := parts.foldl (fun sum n => 60 * sum + n) 0

/-- The number that a text without underscores and behind its sign
writes. -/
def wholeBehindSign (cs : Chars) : Except Fault Int :=
  match cs with
  | [] => .error (.noPosition "string index out of range")
  | ['0'] => .ok 0
  | '0' :: 'b' :: digits => Written.whole 2 digits
  | '0' :: 'x' :: digits => Written.whole 16 digits
  | '0' :: _ => Written.whole 8 cs
  | _ =>
      if cs.contains ':' then sumBySixties <$> (Text.cut ':' cs).mapM (Written.whole 10)
      else Written.whole 10 cs

/-- A whole number. -/
def whole (cs : Chars) : Except Fault Data := do
  let (negative, rest) := Written.unsigned (cs.filter (· ≠ '_'))
  let n ← wholeBehindSign rest
  return .value (.int (if negative then -n else n))

/-- The data of a number, an infinity, or no number. -/
def ofExtended : Extended → Data
  | .finite x => .value (.float x)
  | .infinite negative =>
      let text := if negative then "-inf" else "inf"
      .foreign ⟨"float", text, text⟩
  | .noNumber => .foreign ⟨"float", "nan", "nan"⟩

/-- The sum of fractions by sixties, from the last one on; every factor,
product and sum is rounded, and a factor that is too large is refused. -/
def sumFractions : Nat → Extended → List Extended → Except Fault Extended
  | _, sum, [] => .ok sum
  | base, sum, x :: before =>
      match Double.ofRatio? false base 1 with
      | some factor => sumFractions (60 * base) (sum.add (x.scale factor)) before
      | none => .error (.system "OverflowError" "int too large to convert to float")

/-- A fraction. -/
def fraction (cs : Chars) : Except Fault Data := do
  let plain := Text.lower (cs.filter (· ≠ '_'))
  if plain.isEmpty then throw (.noPosition "string index out of range")
  let (negative, digits) := Written.unsigned plain
  let x ← match String.ofList digits with
    | ".inf" => pure (.infinite false)
    | ".nan" => pure .noNumber
    | _ =>
        if digits.contains ':' then
          let parts ← (Text.cut ':' digits).mapM Written.fraction
          sumFractions 1 .zero parts.reverse
        else Written.fraction digits
  return ofExtended (if negative then x.neg else x)

/-- A truth value. -/
def truth (text : String) : Except Fault Data :=
  let lower := lowerCase text
  if ["yes", "true", "on"].contains lower then .ok (.value (.bool true))
  else if ["no", "false", "off"].contains lower then .ok (.value (.bool false))
  else .error (.noEntry text)

/-- A point in time. -/
def moment (cs : Chars) : Except Fault Data :=
  match moment? cs with
  | none => .error (.noAttribute "'NoneType' object has no attribute 'groupdict'")
  | some m =>
      match m.fault? with
      | some fault => .error fault
      | none => .ok (.foreign ⟨m.typeName, m.text, m.quoted⟩)

/-- Bytes, written in base 64. -/
def binary (text : String) : Except Refusal Data :=
  match Binary.ofBase64? text with
  | some bytes => if text.toList.all (·.toNat < 128) then .ok (.bytes bytes) else .error .malformed
  | none => .error .malformed

/-- The data that a scalar of a kind stands for. -/
def read (kind text : String) : Except Refusal Data :=
  match kind with
  | "null" => .ok (.value .null)
  | "bool" => (truth text).mapError .fault
  | "int" => (whole text.toList).mapError .fault
  | "float" => (fraction text.toList).mapError .fault
  | "timestamp" => (moment text.toList).mapError .fault
  | "str" => .ok (.value (.str text))
  | "binary" => binary text
  | _ => .error .malformed

end Depot.Yaml.Scalar
