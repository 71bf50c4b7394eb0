/-
Texts on the wire. Every character of a text is written by itself or by an
escape that says where it ends, so a reader can take the characters off the
front of a wire text one by one (`readWire_wireOne`). Hence what stands
between two quotes determines the text and where it ends (`wire_cancel`).
-/
import Depot.Number.Written
import Depot.Text.Quoted
import Mathlib.Tactic.NormNum

namespace Depot.Text

-- ========================================================= hexadecimal

/-- The number that hexadecimal digits write. -/
def hexValue (cs : List Char) : Nat :=
  cs.foldl (fun n c => 16 * n + (Written.digitValue? c).getD 0) 0

/-- One more digit counts once, and all before it sixteen times more. -/
theorem hexValue_append_singleton (cs : List Char) (c : Char) :
    hexValue (cs ++ [c]) = 16 * hexValue cs + (Written.digitValue? c).getD 0 := by
  unfold hexValue
  rw [List.foldl_append]
  rfl

/-- The hexadecimal digits of a number write it. -/
theorem hexValue_toDigits (n : Nat) : hexValue (Nat.toDigits 16 n) = n := by
  induction n using Nat.strong_induction_on with
  | h n ih =>
      have hdigit : ∀ d < 16, (Written.digitValue? d.digitChar).getD 0 = d := by decide
      by_cases hsmall : n < 16
      · rw [Nat.toDigits_of_lt_base hsmall]
        show 16 * 0 + _ = n
        rw [hdigit n hsmall]
        omega
      · have hsplit : 16 * (n / 16) + n % 16 = n := Nat.div_add_mod n 16
        have hlast : n % 16 < 16 := Nat.mod_lt n (by omega)
        have hdigits := Nat.toDigits_append_toDigits (b := 16) (by omega)
          (show 0 < n / 16 by omega) hlast
        rw [hsplit, Nat.toDigits_of_lt_base hlast] at hdigits
        rw [← hdigits, hexValue_append_singleton, ih (n / 16) (by omega), hdigit _ hlast, hsplit]

theorem hexValue_zeros (n : Nat) (cs : List Char) :
    hexValue (List.replicate n '0' ++ cs) = hexValue cs := by
  induction n with
  | zero => rfl
  | succ n ih => exact ih

theorem hexValue_hex (width n : Nat) : hexValue (hex width n) = n := by
  unfold hex
  rw [hexValue_zeros, hexValue_toDigits]

/-- A number that fits has just as many digits as asked for. -/
theorem length_hex {n : Nat} (h : n < 16 ^ 4) : (hex 4 n).length = 4 := by
  have hfits : (Nat.toDigits 16 n).length ≤ 4 :=
    (Nat.length_toDigits_le_iff (by omega) (by omega)).2 h
  unfold hex
  dsimp only
  rw [List.length_append, List.length_replicate]
  omega

theorem take_hex {n : Nat} (h : n < 16 ^ 4) (rest : List Char) :
    (hex 4 n ++ rest).take 4 = hex 4 n := by
  rw [List.take_append_of_le_length (length_hex h).ge, List.take_of_length_le (length_hex h).le]

theorem drop_hex {n : Nat} (h : n < 16 ^ 4) (rest : List Char) :
    (hex 4 n ++ rest).drop 4 = rest := by
  rw [List.drop_append_of_le_length (length_hex h).ge, List.drop_of_length_le (length_hex h).le,
    List.nil_append]

-- =========================================================== characters

/-- The character that a letter after a backslash stands for. -/
def unescape : Char → Char
  | 'n' => '\n'
  | 'r' => '\r'
  | 't' => '\t'
  | 'b' => '\x08'
  | 'f' => '\x0c'
  | c => c

/-- The first character of a wire text, with what follows it. -/
def readWire : List Char → Option (Char × List Char)
  | '\\' :: 'u' :: rest =>
      let unit := hexValue (rest.take 4)
      if 0xD800 ≤ unit ∧ unit < 0xDC00 then
        let low := hexValue (((rest.drop 4).drop 2).take 4)
        some (.ofNat (0x10000 + (unit - 0xD800) * 0x400 + (low - 0xDC00)),
          ((rest.drop 4).drop 2).drop 4)
      else some (.ofNat unit, rest.drop 4)
  | '\\' :: c :: rest => some (unescape c, rest)
  | c :: rest => some (c, rest)
  | [] => none

/-- A unit that begins no pair is a character. -/
theorem readWire_unit (u : Nat) (hfits : u < 16 ^ 4) (hsingle : ¬ (0xD800 ≤ u ∧ u < 0xDC00))
    (rest : List Char) :
    readWire ('\\' :: 'u' :: (hex 4 u ++ rest)) = some (.ofNat u, rest) := by
  simp only [readWire, take_hex hfits, drop_hex hfits, hexValue_hex, if_neg hsingle]

/-- Two escapes of a pair are read as one character. -/
theorem readWire_pair (high low : Nat) (hhigh : high < 16 ^ 4) (hlow : low < 16 ^ 4)
    (hpair : 0xD800 ≤ high ∧ high < 0xDC00) (rest : List Char) :
    readWire ('\\' :: 'u' :: (hex 4 high ++ '\\' :: 'u' :: (hex 4 low ++ rest)))
      = some (.ofNat (0x10000 + (high - 0xD800) * 0x400 + (low - 0xDC00)), rest) := by
  simp only [readWire, take_hex hhigh, drop_hex hhigh, hexValue_hex, if_pos hpair,
    List.drop_succ_cons, List.drop_zero, take_hex hlow, drop_hex hlow]

/-- A character that is written by its units reads back. -/
theorem readWire_units (c : Char) (rest : List Char) :
    readWire (((units c).flatMap fun u => '\\' :: 'u' :: hex 4 u) ++ rest) = some (c, rest) := by
  have hvalid : c.toNat < 0xD800 ∨ 0xDFFF < c.toNat ∧ c.toNat < 0x110000 := c.valid
  have hself : Char.ofNat c.toNat = c := Char.ofNat_toNat c
  by_cases hsmall : c.toNat < 0x10000
  · have hread := readWire_unit c.toNat (by omega) (by omega) rest
    rw [hself] at hread
    rw [units, if_pos hsmall, List.flatMap_singleton, List.cons_append, List.cons_append]
    exact hread
  · have hread := readWire_pair (0xD800 + (c.toNat - 0x10000) / 0x400)
      (0xDC00 + (c.toNat - 0x10000) % 0x400) (by omega) (by omega) (by omega) rest
    have hjoin : 0x10000 + (0xD800 + (c.toNat - 0x10000) / 0x400 - 0xD800) * 0x400
        + (0xDC00 + (c.toNat - 0x10000) % 0x400 - 0xDC00) = c.toNat := by omega
    rw [hjoin, hself] at hread
    rw [units, if_neg hsmall, List.flatMap_cons, List.flatMap_singleton, List.append_assoc,
      List.cons_append, List.cons_append, List.cons_append, List.cons_append]
    exact hread

/-- A character that needs no escape reads back. -/
theorem readWire_plain {c : Char} (h : c ≠ '\\') (rest : List Char) :
    readWire (c :: rest) = some (c, rest) := by
  unfold readWire
  split
  · next hchars => injection hchars with hc; exact absurd hc h
  · next hchars => injection hchars with hc; exact absurd hc h
  · next hchars => injection hchars with hc hrest; rw [hc, hrest]
  · next hchars => cases hchars

/-- Every character reads back. -/
theorem readWire_wireOne (c : Char) (rest : List Char) :
    readWire (wireOne c ++ rest) = some (c, rest) := by
  unfold wireOne
  by_cases hquoted : c = '"' ∨ c = '\\'
  · rw [if_pos hquoted]
    rcases hquoted with rfl | rfl
    · rfl
    · rfl
  · rw [if_neg hquoted]
    -- the five escapes by letters, then what stands for itself, then units
    split
    · next h => rw [h]; rfl
    · split
      · next h => rw [h]; rfl
      · split
        · next h => rw [h]; rfl
        · split
          · next h => rw [h]; rfl
          · split
            · next h => rw [h]; rfl
            · split
              · exact readWire_plain (fun h => hquoted (.inr h)) rest
              · exact readWire_units c rest

/-- No character's text begins like the end of a text. -/
theorem wireOne_ne_quote (c : Char) (rest tail : List Char) : wireOne c ++ rest ≠ '"' :: tail := by
  intro h
  have hread := readWire_wireOne c rest
  rw [h] at hread
  have hc : '"' = c := by
    injection hread with hpair
    injection hpair
  rw [← hc] at h
  cases h

/-- Texts that agree up to their ends are the same, and end in the same
place. -/
theorem wire_cancel {a b r s : List Char} (h : wire a ++ r = wire b ++ s) : a = b ∧ r = s := by
  have hbody : ∀ a b : List Char,
      a.flatMap wireOne ++ '"' :: r = b.flatMap wireOne ++ '"' :: s → a = b ∧ r = s := by
    intro a
    induction a with
    | nil =>
        intro b hb
        cases b with
        | nil => injection hb with _ hrest; exact ⟨rfl, hrest⟩
        | cons d b =>
            rw [List.flatMap_cons, List.append_assoc] at hb
            exact absurd hb.symm (wireOne_ne_quote d _ _)
    | cons c a ih =>
        intro b hb
        cases b with
        | nil =>
            rw [List.flatMap_cons, List.append_assoc] at hb
            exact absurd hb (wireOne_ne_quote c _ _)
        | cons d b =>
            rw [List.flatMap_cons, List.flatMap_cons, List.append_assoc, List.append_assoc] at hb
            have hread := congrArg readWire hb
            rw [readWire_wireOne, readWire_wireOne] at hread
            injection hread with hpair
            injection hpair with hc hrest
            obtain ⟨hab, hrs⟩ := ih b hrest
            exact ⟨by rw [hc, hab], hrs⟩
  unfold wire at h
  rw [List.cons_append, List.cons_append, List.append_assoc, List.append_assoc] at h
  injection h with _ htail
  exact hbody a b htail

end Depot.Text
