/-
Reading a value from its wire text. The reader takes what `Value.wire`
writes and every other layout of the same grammar: any blanks between
tokens, any order of keys, any escapes. A key that is set twice keeps
its first place and its last value.

Each step returns the rest of the text. The fuel counts nested values;
the length of the text bounds it.
-/
import Depot.Value.Basic

namespace Depot.Value

/-- What is left after blanks. -/
def skipBlanks (cs : List Char) : List Char :=
  cs.dropWhile fun c => c = ' ' || c = '\n' || c = '\r' || c = '\t'

-- =========================================================== strings

/-- The value of a hexadecimal digit. -/
def hexValue? (c : Char) : Option Nat :=
  if '0' ≤ c ∧ c ≤ '9' then some (c.toNat - 48)
  else if 'a' ≤ c ∧ c ≤ 'f' then some (c.toNat - 87)
  else if 'A' ≤ c ∧ c ≤ 'F' then some (c.toNat - 55)
  else none

/-- Four hexadecimal digits at the start of a text. -/
def hexUnit? : List Char → Option (Nat × List Char)
  | a :: b :: c :: d :: rest => do
      let n := ((← hexValue? a) * 16 + (← hexValue? b)) * 16 + (← hexValue? c)
      return (n * 16 + (← hexValue? d), rest)
  | _ => none

/-- The character of an escape by code: one unit, or a pair of
surrogates. -/
def codeEscape? (cs : List Char) : Option (Char × List Char) := do
  let (high, rest) ← hexUnit? cs
  if 0xD800 ≤ high ∧ high < 0xDC00 then
    match rest with
    | '\\' :: 'u' :: rest =>
        let (low, rest) ← hexUnit? rest
        return (Char.ofNat (0x10000 + (high - 0xD800) * 0x400 + (low - 0xDC00)), rest)
    | _ => none
  else return (Char.ofNat high, rest)

/-- The character of an escape by letter. -/
def letterEscape? : Char → Option Char
  | '"' => some '"'
  | '\\' => some '\\'
  | '/' => some '/'
  | 'b' => some '\x08'
  | 'f' => some '\x0c'
  | 'n' => some '\n'
  | 'r' => some '\r'
  | 't' => some '\t'
  | _ => none

/-- The rest of a string after its opening quote; `done` holds the
characters read, last first. -/
def readString (done : List Char) : Nat → List Char → Option (String × List Char)
  | 0, _ => none
  | fuel + 1, cs =>
      match cs with
      | '"' :: rest => some (String.ofList done.reverse, rest)
      | '\\' :: 'u' :: rest => do
          let (c, rest) ← codeEscape? rest
          readString (c :: done) fuel rest
      | '\\' :: e :: rest => do readString ((← letterEscape? e) :: done) fuel rest
      | c :: rest => readString (c :: done) fuel rest
      | [] => none

-- =========================================================== numbers

/-- The digits at the start of a text, as a number with their count, and
the rest. -/
def readDigits (cs : List Char) : Nat × Nat × List Char :=
  let ds := cs.takeWhile Char.isDigit
  (ds.foldl (fun n d => 10 * n + (d.toNat - 48)) 0, ds.length, cs.drop ds.length)

/-- The exponent part of a number, if there is one. -/
def readExponent : List Char → Option (Int × List Char)
  | e :: rest =>
      if e = 'e' ∨ e = 'E' then
        let (negative, rest) := match rest with
          | '-' :: r => (true, r)
          | '+' :: r => (false, r)
          | r => (false, r)
        let (n, count, rest) := readDigits rest
        if count = 0 then none else some (if negative then -(n : Int) else n, rest)
      else none
  | [] => none

/-- A number: whole unless it has a point or an exponent. -/
def readNumber (cs : List Char) : Option (Value × List Char) :=
  let (negative, cs) := match cs with
    | '-' :: r => (true, r)
    | r => (false, r)
  let (whole, count, rest) := readDigits cs
  if count = 0 then none
  else
    let (digits, scale, rest, hasPoint) := match rest with
      | '.' :: r =>
          let (fraction, places, r) := readDigits r
          (whole * Nat.pow 10 places + fraction, -(places : Int), r, true)
      | r => (whole, 0, r, false)
    match readExponent rest with
    | some (e, rest) =>
        (Double.ofDecimal? negative digits (scale + e)).map fun x => (.float x, rest)
    | none =>
        if hasPoint then (Double.ofDecimal? negative digits scale).map fun x => (.float x, rest)
        else some (.int (if negative then -(digits : Int) else digits), rest)

-- ============================================================ values

mutual
/-- One value at the start of a text. -/
def readValue : Nat → List Char → Option (Value × List Char)
  | 0, _ => none
  | fuel + 1, cs =>
      match skipBlanks cs with
      | 'n' :: 'u' :: 'l' :: 'l' :: rest => some (.null, rest)
      | 't' :: 'r' :: 'u' :: 'e' :: rest => some (.bool true, rest)
      | 'f' :: 'a' :: 'l' :: 's' :: 'e' :: rest => some (.bool false, rest)
      | '"' :: rest => do
          let (s, rest) ← readString [] (rest.length + 1) rest
          return (.str s, rest)
      | '[' :: rest =>
          match skipBlanks rest with
          | ']' :: rest => some (.list [], rest)
          | rest => do
              let (items, rest) ← readItems fuel rest
              return (.list items, rest)
      | '\x7b' :: rest =>
          match skipBlanks rest with
          | '\x7d' :: rest => some (.object [], rest)
          | rest => do
              let (entries, rest) ← readEntries fuel rest
              return (.object (Fields.ofEntries entries), rest)
      | rest => readNumber rest
/-- The items of a list after its opening bracket, at least one. -/
def readItems : Nat → List Char → Option (List Value × List Char)
  | 0, _ => none
  | fuel + 1, cs => do
      let (v, rest) ← readValue fuel cs
      match skipBlanks rest with
      | ',' :: rest =>
          let (vs, rest) ← readItems fuel rest
          return (v :: vs, rest)
      | ']' :: rest => return ([v], rest)
      | _ => none
/-- The entries of a mapping after its opening brace, at least one. -/
def readEntries : Nat → List Char → Option (Fields × List Char)
  | 0, _ => none
  | fuel + 1, cs =>
      match skipBlanks cs with
      | '"' :: rest => do
          let (k, rest) ← readString [] (rest.length + 1) rest
          match skipBlanks rest with
          | ':' :: rest =>
              let (v, rest) ← readValue fuel rest
              match skipBlanks rest with
              | ',' :: rest =>
                  let (fs, rest) ← readEntries fuel rest
                  return ((k, v) :: fs, rest)
              | '\x7d' :: rest => return ([(k, v)], rest)
              | _ => none
          | _ => none
      | _ => none
end

/-- The value that a whole text writes. -/
def ofWire? (s : String) : Option Value :=
  let cs := s.toList
  match readValue (cs.length + 1) cs with
  | some (v, rest) => if (skipBlanks rest).isEmpty then some v else none
  | none => none

end Depot.Value
