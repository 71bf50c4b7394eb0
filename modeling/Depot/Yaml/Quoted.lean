/-
Quoted scalars. Between quotes a break stands for a space and each
further one for itself, and the blanks around a break do not count. Two
single quotes stand for one; between double quotes a backslash begins an
escape, or takes a break out of the text.

A reader begins after the opening quote and ends after the closing one.
The fuel is the length of what is left: each step takes a character.
-/
import Depot.Yaml.Cursor
import Depot.Value.Reader

namespace Depot.Yaml.Quoted

-- =========================================================== escapes

/-- The character that an escape letter stands for. -/
def letterEscape? : Char → Option Char
  | '0' => some '\x00'
  | 'a' => some '\x07'
  | 'b' => some '\x08'
  | 't' | '\t' => some '\t'
  | 'n' => some '\n'
  | 'v' => some '\x0b'
  | 'f' => some '\x0c'
  | 'r' => some '\r'
  | 'e' => some '\x1b'
  | ' ' => some ' '
  | '"' => some '"'
  | '\\' => some '\\'
  | '/' => some '/'
  | 'N' => some '\u0085'
  | '_' => some '\u00a0'
  | 'L' => some '\u2028'
  | 'P' => some '\u2029'
  | _ => none

/-- How many hexadecimal digits follow an escape letter. -/
def codeLength? : Char → Option Nat
  | 'x' => some 2
  | 'u' => some 4
  | 'U' => some 8
  | _ => none

/-- The number that hexadecimal digits write. -/
def hexNumber? (digits : List Char) : Option Nat :=
  digits.foldl (fun acc c => do return 16 * (← acc) + (← Value.hexValue? c)) (some 0)

/-- The code that an escape by code writes, from its letter on, and the
place after it. -/
def code? (p : Cursor) : Option (Nat × Cursor) := do
  let length ← codeLength? (← p.here)
  let digits := p.next.rest.take length
  if digits.length < length then none
  return (← hexNumber? digits, p.next.advance length)

/-- Whether a code is the first half of a pair. -/
def isHighHalf (n : Nat) : Bool := 0xD800 ≤ n && n < 0xDC00

/-- Whether a code is the second half of a pair. -/
def isLowHalf (n : Nat) : Bool := 0xDC00 ≤ n && n < 0xE000

/-- The character of a code; a replacement for a half of a pair. A code
beyond the last character is a fault of the value, not of the format. -/
def character (n : Nat) : Except Refusal Char :=
  if isHighHalf n || isLowHalf n then .ok '\ufffd'
  else if n < 0x110000 then .ok (Char.ofNat n)
  else if n < Nat.pow 2 31 then .error (.fault (.badValue "chr() arg not in range(0x110000)"))
  else .error (.fault (.system "OverflowError" "the code is too large"))

/-- The character of an escape by code, from its letter on, and the place
after it. Two halves of a pair are one character. -/
def codeEscape (p : Cursor) : Except Refusal (Char × Cursor) := do
  let some (n, p) := code? p | throw .malformed
  let second := if isHighHalf n && p.here = some '\\' then code? p.next else none
  match second with
  | some (m, q) =>
      if isLowHalf m then
        return (Char.ofNat (0x10000 + (n - 0xD800) * 0x400 + (m - 0xDC00)), q)
      else return (← character n, p)
  | none => return (← character n, p)

-- ============================================================ breaks

/-- The breaks after a first one, with the blanks among them left out. A
mark between documents must not stand at the beginning of a line. -/
def breaks : Nat → Cursor → Except Refusal (List Char × Cursor)
  | 0, p => .ok ([], p)
  | n + 1, p =>
      if p.atAnyMark then .error .malformed
      else
        let p := p.skip isSpace
        match p.lineBreak? with
        | some (c, p) => do
            let (more, p) ← breaks n p
            return (c :: more, p)
        | none => .ok ([], p)

/-- What a first break and those after it stand for. -/
def folded (first : Char) (more : List Char) : List Char :=
  if first ≠ '\n' then first :: more else if more.isEmpty then [' '] else more

/-- What blanks and breaks stand for, at least one of them. -/
def gap (p : Cursor) : Except Refusal (List Char × Cursor) := do
  let (blanks, p) := p.take isSpace
  match p.rest, p.lineBreak? with
  | [], _ => throw .malformed
  | _, some (first, p) =>
      let (more, p) ← breaks (p.rest.length + 1) p
      return (folded first more, p)
  | _, none => return (blanks, p)

-- ============================================================== text

/-- What an escape stands for, from the character after its backslash
on. -/
def escape (p : Cursor) : Except Refusal (List Char × Cursor) := do
  let some c := p.here | throw .malformed
  match letterEscape? c, p.lineBreak? with
  | some d, _ => return ([d], p.next)
  | none, some (_, p) => breaks (p.rest.length + 1) p
  | none, none =>
      let (d, p) ← codeEscape p
      return ([d], p)

/-- The text up to the closing quote, in at most `n` steps. -/
def readFrom (quote : Char) : Nat → Cursor → Except Refusal (List Char × Cursor)
  | 0, _ => .error .malformed
  | n + 1, p => do
      let more := fun (text : List Char) (p : Cursor) => do
        let (rest, p) ← readFrom quote n p
        return (text ++ rest, p)
      match p.rest with
      | [] => throw .malformed
      | c :: after =>
          if c = quote then
            if quote = '\'' && after.head? = some '\'' then more ['\''] p.next.next
            else return ([], p.next)
          else if c = '\\' && quote = '"' then
            let (text, p) ← escape p.next
            more text p
          else if isGap c then
            let (text, p) ← gap p
            more text p
          else more [c] p.next

/-- The text of a quoted scalar that begins here with its quote, and the
place after it. -/
def read (p : Cursor) : Except Refusal (List Char × Cursor) :=
  match p.here with
  | some quote => readFrom quote (p.rest.length + 1) p.next
  | none => .error .malformed

end Depot.Yaml.Quoted
