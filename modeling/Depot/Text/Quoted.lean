/-
Two quoted forms of a text. The display form is for people: single
quotes unless only double ones save an escape, and every character that
can be shown stands as it is. The wire form is for machines: double
quotes and printable ASCII alone, everything else as UTF-16 units in
hexadecimal.
-/
import Depot.Text.Shown

namespace Depot.Text

/-- `n` in hexadecimal, lower case, with at least `width` digits. -/
def hex (width n : Nat) : List Char :=
  let ds := Nat.toDigits 16 n
  List.replicate (width - ds.length) '0' ++ ds

-- ====================================================== display form

/-- The quote that encloses a displayed text. -/
def displayQuote (cs : List Char) : Char :=
  if cs.contains '\'' && !cs.contains '"' then '"' else '\''

/-- One character of a displayed text. A hidden character is written by
its code, with as many digits as its size asks for. -/
def displayOne (quote c : Char) : List Char :=
  if c = quote ∨ c = '\\' then ['\\', c]
  else if c = '\n' then ['\\', 'n']
  else if c = '\r' then ['\\', 'r']
  else if c = '\t' then ['\\', 't']
  else if isShown c then [c]
  else if c.toNat < 0x100 then '\\' :: 'x' :: hex 2 c.toNat
  else if c.toNat < 0x10000 then '\\' :: 'u' :: hex 4 c.toNat
  else '\\' :: 'U' :: hex 8 c.toNat

/-- A text as it is displayed inside a structure. -/
def display (cs : List Char) : List Char :=
  let quote := displayQuote cs
  quote :: cs.flatMap (displayOne quote) ++ [quote]

-- ========================================================= wire form

/-- The UTF-16 units of a character. -/
def units (c : Char) : List Nat :=
  if c.toNat < 0x10000 then [c.toNat]
  else [0xD800 + (c.toNat - 0x10000) / 0x400, 0xDC00 + (c.toNat - 0x10000) % 0x400]

/-- One character of a text on the wire. -/
def wireOne (c : Char) : List Char :=
  if c = '"' ∨ c = '\\' then ['\\', c]
  else if c = '\n' then ['\\', 'n']
  else if c = '\r' then ['\\', 'r']
  else if c = '\t' then ['\\', 't']
  else if c = '\x08' then ['\\', 'b']
  else if c = '\x0c' then ['\\', 'f']
  else if 32 ≤ c.toNat ∧ c.toNat < 127 then [c]
  else (units c).flatMap fun u => '\\' :: 'u' :: hex 4 u

/-- A text on the wire. -/
def wire (cs : List Char) : List Char := '"' :: cs.flatMap wireOne ++ ['"']

end Depot.Text
