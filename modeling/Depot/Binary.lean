/-
Bytes as texts: written in base 64, shown in messages, and read as
characters.

Reading base 64 is lenient: what is no digit counts for nothing, and so
does what follows the padding of a group. Only a group that is left
incomplete is refused.
-/
import Depot.Text.Quoted

namespace Depot.Binary

/-- The bytes of a thing that is no text. -/
abbrev Bytes := List UInt8

-- ============================================================ base 64

/-- The value of a digit of base 64. -/
def digitValue? (c : Char) : Option Nat :=
  if 'A' ≤ c ∧ c ≤ 'Z' then some (c.toNat - 65)
  else if 'a' ≤ c ∧ c ≤ 'z' then some (c.toNat - 71)
  else if '0' ≤ c ∧ c ≤ '9' then some (c.toNat + 4)
  else if c = '+' then some 62
  else if c = '/' then some 63
  else none

/-- A group of four digits that is being read: how many digits it has, the
bits of the last one that are in no byte yet, and how many signs of
padding followed. -/
structure Group where
  count : Nat := 0
  bits : Nat := 0
  pads : Nat := 0

/-- The bytes that a text in base 64 writes from here on. -/
def ofBase64From (g : Group) : List Char → Option Bytes
  | [] => if g.count = 0 then some [] else none
  | c :: rest =>
      if c = '=' then
        if g.count < 2 then ofBase64From g rest
        else if g.count + g.pads < 3 then ofBase64From { g with pads := g.pads + 1 } rest
        else some []
      else match digitValue? c with
        | none => ofBase64From g rest
        | some d =>
            let byte := fun (n : Nat) (g : Group) =>
              (ofBase64From g rest).map fun more => n.toUInt8 :: more
            match g.count with
            | 0 => ofBase64From ⟨1, d, 0⟩ rest
            | 1 => byte (g.bits * 4 + d / 16) ⟨2, d % 16, 0⟩
            | 2 => byte (g.bits * 16 + d / 4) ⟨3, d % 4, 0⟩
            | _ => byte (g.bits * 64 + d) {}

/-- The bytes that a text in base 64 writes. -/
def ofBase64? (text : String) : Option Bytes := ofBase64From {} text.toList

-- ============================================================== texts

/-- The characters that the bytes are the usual encoding of. -/
def text? (bytes : Bytes) : Option String := String.fromUTF8? ⟨bytes.toArray⟩

/-- One byte of displayed bytes: a character of the smallest range as in a
text, any other byte by its number. -/
def displayOne (quote : Char) (byte : UInt8) : List Char :=
  if byte.toNat < 127 then Text.displayOne quote (Char.ofNat byte.toNat)
  else '\\' :: 'x' :: Text.hex 2 byte.toNat

/-- The bytes as a message shows them. -/
def displayChars (bytes : Bytes) : List Char :=
  let quote := Text.displayQuote (bytes.map fun byte => Char.ofNat byte.toNat)
  'b' :: quote :: bytes.flatMap (displayOne quote) ++ [quote]

end Depot.Binary
