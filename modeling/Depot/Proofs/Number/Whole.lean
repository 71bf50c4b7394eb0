/-
Whole numbers that are written in digits alone. A text of plain digits takes
none of the liberties of a written number: there are no blanks around it, no
sign, no digits of another script and no mark of a base. So it reads as the
number that its digits write, unless there are too many of them
(`whole_digits`).

A digit of another script reads as the plain one of its value. But what counts
as a digit need not have a value: a superscript or a circled number is a digit
and not a decimal, and a text with one in it is no number. Therefore a text of
digits reads as a number if they are decimals and not too many
(`exists_whole_iff`).
-/
import Depot.Proofs.Number.Text
import Depot.Proofs.Text.Tidy
import Mathlib.Data.List.TakeWhile

namespace Depot.Written

instance (cs : Chars) : Decidable (Digits cs) :=
  List.decidableBAll (fun c : Char => c.isDigit = true) cs

-- =========================================================== one digit

section OneDigit

variable {c : Char}

theorem bounds_of_isDigit (h : c.isDigit = true) : 48 ≤ c.toNat ∧ c.toNat ≤ 57 :=
  Char.isDigit_iff_toNat.1 h

theorem decimalValue?_of_isDigit (h : c.isDigit = true) :
    Text.decimalValue? c = some (c.toNat - 48) := by
  obtain ⟨hlow, hhigh⟩ := bounds_of_isDigit h
  have hfirst : (48 ≤ c.toNat && c.toNat < 48 + 10) = true := by
    rw [Bool.and_eq_true, decide_eq_true_eq, decide_eq_true_eq]
    omega
  obtain ⟨others, hothers⟩ : ∃ others, Text.decimalZeros = 48 :: others := ⟨_, rfl⟩
  unfold Text.decimalValue?
  rw [hothers, List.find?_cons, hfirst]
  rfl

theorem plainDigit_of_isDigit (h : c.isDigit = true) : plainDigit c = c := by
  obtain ⟨hlow, -⟩ := bounds_of_isDigit h
  have hback : 48 + (c.toNat - 48) = c.toNat := by omega
  unfold plainDigit
  rw [decimalValue?_of_isDigit h, Option.elim_some, hback, Char.ofNat_toNat]

theorem isDecimal_of_isDigit (h : c.isDigit = true) : Text.isDecimal c = true := by
  unfold Text.isDecimal
  rw [decimalValue?_of_isDigit h]
  rfl

theorem text_isDigit (h : c.isDigit = true) : Text.isDigit c = true := by
  unfold Text.isDigit
  rw [isDecimal_of_isDigit h]
  rfl

theorem not_isBlank_of_isDigit (h : c.isDigit = true) : Text.isBlank c = false := by
  obtain ⟨hlow, hhigh⟩ := bounds_of_isDigit h
  simp only [Text.isBlank, Text.blankRanges, List.any_cons, List.any_nil, Bool.or_eq_false_iff,
    Bool.and_eq_false_iff, decide_eq_false_iff_not, and_true]
  omega

end OneDigit

-- ============================================================== digits

section AllDigits

variable {cs : Chars}

theorem trimmed_digits (h : Digits cs) : trimmed cs = cs := by
  have hplain : cs.map plainDigit = cs := by
    refine (List.map_congr_left fun c hc => ?_).trans (List.map_id cs)
    exact plainDigit_of_isDigit (h c hc)
  unfold trimmed
  rw [hplain]
  refine Text.strip_eq_self (fun c hc => ?_) (fun c hc => ?_)
  · exact not_isBlank_of_isDigit (h c (List.mem_of_head? hc))
  · exact not_isBlank_of_isDigit (h c (List.mem_of_getLast? hc))

theorem unsigned_digits (h : Digits cs) : unsigned cs = (false, cs) := by
  unfold unsigned
  split
  · exact absurd (h '-' (by simp)) (by decide)
  · exact absurd (h '+' (by simp)) (by decide)
  · rfl

theorem unmarked_ten (cs : Chars) : unmarked 10 cs = cs := by
  unfold unmarked
  split
  · rfl
  · rfl

/-- A number goes on digit by digit, and no digit is refused. -/
theorem foldl_digits (h : Digits cs) (n : Nat) :
    cs.foldl (fun acc c => do
      let d ← digitValue? c
      if d < 10 then return 10 * (← acc) + d else none) (some n)
      = some (cs.foldl (fun n d => 10 * n + (d.toNat - 48)) n) := by
  induction cs generalizing n with
  | nil => rfl
  | cons c cs ih =>
      obtain ⟨hc, hrest⟩ := List.forall_mem_cons.1 h
      obtain ⟨-, hhigh⟩ := bounds_of_isDigit hc
      have hvalue : digitValue? c = some (c.toNat - 48) := by
        unfold digitValue?
        rw [if_pos hc]
      have hsmall : c.toNat - 48 < 10 := by omega
      rw [List.foldl_cons, List.foldl_cons, hvalue]
      show cs.foldl _ (if c.toNat - 48 < 10 then _ else _) = _
      rw [if_pos hsmall]
      exact ih hrest _

/-- Digits are read as the number they write. -/
theorem ofDigits?_digits (h : Digits cs) (hne : cs ≠ []) :
    ofDigits? 10 cs = some (ofDigits cs) := by
  unfold ofDigits?
  rw [if_neg (by simpa using hne)]
  exact foldl_digits h 0

/-- A text that comes to plain digits reads as the number that they write,
unless they are too many. -/
theorem whole_of_trimmed {ds : Chars} (htrimmed : trimmed cs = ds) (h : Digits ds) (hne : ds ≠ []) :
    whole 10 cs
      = if mostDigits < ds.length then .error (tooManyDigits ds.length) else .ok (ofDigits ds) := by
  have hcount : ds.takeWhile Char.isDigit = ds := List.takeWhile_eq_self_iff.2 h
  unfold whole
  rw [htrimmed, unsigned_digits h]
  dsimp only
  rw [unmarked_ten, hcount, ofDigits?_digits h hne]
  by_cases hmany : mostDigits < ds.length
  · rw [if_pos hmany, if_pos ⟨rfl, hmany⟩]
    rfl
  · rw [if_neg hmany, if_neg fun hboth => hmany hboth.2]
    rfl

/-- A whole number in plain digits reads as the number that they write,
unless they are too many. -/
theorem whole_digits (h : Digits cs) (hne : cs ≠ []) :
    whole 10 cs
      = if mostDigits < cs.length then .error (tooManyDigits cs.length) else .ok (ofDigits cs) :=
  whole_of_trimmed (trimmed_digits h) h hne

end AllDigits

-- ================================================== digits of any script

section Decimals

variable {c : Char} {cs : Chars}

/-- The plain form of a decimal digit is a plain digit. -/
theorem isDigit_plainDigit (h : Text.isDecimal c = true) : (plainDigit c).isDigit = true := by
  obtain ⟨d, hd⟩ := Option.isSome_iff_exists.1 h
  have hsmall : d < 10 := by
    obtain ⟨first, hfirst, rfl⟩ := Option.map_eq_some_iff.1 hd
    have hbounds := List.find?_some hfirst
    rw [Bool.and_eq_true, decide_eq_true_eq, decide_eq_true_eq] at hbounds
    omega
  have hall : ∀ d < 10, (Char.ofNat (48 + d)).isDigit = true := by decide
  unfold plainDigit
  rw [hd]
  exact hall d hsmall

theorem plainDigit_of_not_isDecimal (h : Text.isDecimal c = false) : plainDigit c = c := by
  have hnone : Text.decimalValue? c = none := by simpa [Text.isDecimal] using h
  unfold plainDigit
  rw [hnone]
  rfl

/-- A number in ranges is in none of others that lie apart from them. -/
theorem any_eq_false_of_apart {ranges others : List (Nat × Nat)}
    (apart : ∀ r ∈ ranges, ∀ o ∈ others, r.2 < o.1 ∨ o.2 < r.1) {n : Nat}
    (h : ranges.any (fun (first, last) => first ≤ n && n ≤ last) = true) :
    others.any (fun (first, last) => first ≤ n && n ≤ last) = false := by
  obtain ⟨r, hr, hin⟩ := List.any_eq_true.1 h
  refine List.any_eq_false.2 fun o ho hother => ?_
  simp only [Bool.and_eq_true, decide_eq_true_eq] at hin hother
  have hsides := apart r hr o ho
  omega

/-- A digit sign is no blank. -/
theorem not_isBlank_of_isDigit_of_not_isDecimal (hdigit : Text.isDigit c = true)
    (h : Text.isDecimal c = false) : Text.isBlank c = false := by
  unfold Text.isDigit at hdigit
  rw [h, Bool.false_or] at hdigit
  exact any_eq_false_of_apart (by decide) hdigit

/-- Decimals read as the number that their plain digits write, unless they are
too many. -/
theorem whole_decimals (h : ∀ c ∈ cs, Text.isDecimal c = true) (hne : cs ≠ []) :
    whole 10 cs = if mostDigits < cs.length then .error (tooManyDigits cs.length)
      else .ok (ofDigits (cs.map plainDigit)) := by
  have hdigits : Digits (cs.map plainDigit) :=
    List.forall_mem_map.2 fun c hc => isDigit_plainDigit (h c hc)
  have hplain : (cs.map plainDigit).map plainDigit = cs.map plainDigit := by
    refine (List.map_congr_left fun c hc => ?_).trans (List.map_id _)
    exact plainDigit_of_isDigit (hdigits c hc)
  have htrimmed : trimmed cs = cs.map plainDigit := by
    rw [← trimmed_digits hdigits]
    unfold trimmed
    rw [hplain]
  rw [whole_of_trimmed htrimmed hdigits (by simpa using hne), List.length_map]

/-- A digit of a value below ten is a plain one. -/
theorem isDigit_of_digitValue? {d : Nat} (h : digitValue? c = some d) (hsmall : d < 10) :
    c.isDigit = true := by
  unfold digitValue? at h
  split at h
  · assumption
  · split at h
    · next hlower =>
        cases h
        have hlow : 97 ≤ c.toNat := hlower.1
        omega
    · split at h
      · next hupper =>
          cases h
          have hlow : 65 ≤ c.toNat := hupper.1
          omega
      · cases h

/-- One digit more of a number of base ten. -/
def nextDigit (acc : Option Nat) (c : Char) : Option Nat := do
  let d ← digitValue? c
  if d < 10 then return 10 * (← acc) + d else none

/-- What went wrong once stays wrong. -/
theorem foldl_nextDigit_none (cs : Chars) : cs.foldl nextDigit none = none := by
  induction cs with
  | nil => rfl
  | cons c cs ih =>
      have hnone : nextDigit none c = none := by
        unfold nextDigit
        cases digitValue? c with
        | none => rfl
        | some d =>
            show (if d < 10 then none else none) = none
            rw [ite_self]
      rw [List.foldl_cons, hnone, ih]

/-- A number goes on with a plain digit only. -/
theorem isDigit_of_nextDigit {acc : Option Nat} {n : Nat} (h : nextDigit acc c = some n) :
    c.isDigit = true := by
  unfold nextDigit at h
  obtain ⟨d, hd, h⟩ := Option.bind_eq_some_iff.1 h
  split at h
  · next hsmall => exact isDigit_of_digitValue? hd hsmall
  · cases h

/-- What reads as a number of base ten are plain digits. -/
theorem digits_of_ofDigits? {n : Nat} (h : ofDigits? 10 cs = some n) : Digits cs := by
  have hfold : ∀ acc, cs.foldl nextDigit acc = some n → Digits cs := by
    clear h
    induction cs with
    | nil => simp [Digits]
    | cons c cs ih =>
        intro acc h
        rw [List.foldl_cons] at h
        refine List.forall_mem_cons.2 ⟨?_, ih _ h⟩
        cases hnext : nextDigit acc c with
        | none =>
            rw [hnext, foldl_nextDigit_none] at h
            cases h
        | some m => exact isDigit_of_nextDigit hnext
  unfold ofDigits? at h
  split at h
  · cases h
  · exact hfold (some 0) h

/-- What is no sign stays when the sign is taken off. -/
theorem mem_unsigned (hc : c ∈ cs) (hminus : c ≠ '-') (hplus : c ≠ '+') : c ∈ (unsigned cs).2 := by
  unfold unsigned
  split
  · exact (List.mem_cons.1 hc).resolve_left hminus
  · exact (List.mem_cons.1 hc).resolve_left hplus
  · exact hc

/-- The digits of a text that reads as a number are decimals. -/
theorem isDecimal_of_whole {n : Int} (h : whole 10 cs = .ok n) (hc : c ∈ cs)
    (hdigit : Text.isDigit c = true) : Text.isDecimal c = true := by
  by_contra hnot
  rw [Bool.not_eq_true] at hnot
  have hin : c ∈ (unsigned (trimmed cs)).2 := by
    have hplain := not_isBlank_of_isDigit_of_not_isDecimal hdigit hnot
    refine mem_unsigned (Text.mem_strip ?_ hplain) ?_ ?_
    · rw [← plainDigit_of_not_isDecimal hnot]
      exact List.mem_map_of_mem hc
    · rintro rfl
      revert hdigit
      decide
    · rintro rfl
      revert hdigit
      decide
  unfold whole at h
  dsimp only at h
  rw [unmarked_ten] at h
  split at h
  · cases h
  · cases hdigits : ofDigits? 10 (unsigned (trimmed cs)).2 with
    | none =>
        rw [hdigits] at h
        cases h
    | some m =>
        have hdecimal := isDecimal_of_isDigit (digits_of_ofDigits? hdigits c hin)
        rw [hnot] at hdecimal
        cases hdecimal

/-- A text of digits reads as a number if they are decimals and not too
many. -/
theorem exists_whole_iff (hdigits : ∀ c ∈ cs, Text.isDigit c = true) (hne : cs ≠ []) :
    (∃ n, whole 10 cs = .ok n)
      ↔ (∀ c ∈ cs, Text.isDecimal c = true) ∧ cs.length ≤ mostDigits := by
  constructor
  · rintro ⟨n, hn⟩
    have hdecimals : ∀ c ∈ cs, Text.isDecimal c = true := fun c hc =>
      isDecimal_of_whole hn hc (hdigits c hc)
    rw [whole_decimals hdecimals hne] at hn
    split at hn
    · cases hn
    · next hfits => exact ⟨hdecimals, Nat.not_lt.1 hfits⟩
  · rintro ⟨hdecimals, hfits⟩
    rw [whole_decimals hdecimals hne, if_neg (Nat.not_lt.2 hfits)]
    exact ⟨_, rfl⟩

/-- A text that is no number makes no sense as a value. -/
theorem whole_error {base : Nat} {fault : Fault} (h : whole base cs = .error fault) :
    ∃ text, fault = .badValue text := by
  unfold whole at h
  dsimp only at h
  split at h
  · cases h
    exact ⟨_, rfl⟩
  · split at h
    · cases h
    · cases h
      exact ⟨_, rfl⟩

end Decimals

end Depot.Written
