/-
The text of a binary64 number determines the number (`text_injective`).
However its digits are laid out, a text reads back as the decimal that was
written (`decimal?_write`), and that decimal lies in the interval of one
magnitude only.

A text of a number is made of the characters of numerals, and has a point
or an exponent in it, by which it differs from a whole number.
-/
import Depot.Number.Written
import Depot.Proofs.Number.Rounding

namespace Depot

namespace Written

-- ============================================================== digits

/-- Digits only. -/
def Digits (cs : Chars) : Prop := ∀ c ∈ cs, c.isDigit = true

/-- The decimal digits of a number write it. -/
theorem ofDigits_toDigits (n : Nat) : ofDigits (Double.decimalDigits n) = n :=
  Nat.ofDigitChars_toDigits (by omega) (by omega)

/-- Digits in front count for more by a power of ten. -/
theorem ofDigits_append (a b : Chars) :
    ofDigits (a ++ b) = ofDigits a * 10 ^ b.length + ofDigits b := by
  have hstart : ∀ (cs : Chars) (n : Nat),
      cs.foldl (fun n d => 10 * n + (d.toNat - 48)) n = n * 10 ^ cs.length + ofDigits cs := by
    intro cs
    unfold ofDigits
    induction cs with
    | nil => intro n; simp
    | cons c cs ih =>
        intro n
        rw [List.foldl_cons, List.foldl_cons, ih, ih (10 * 0 + _), List.length_cons]
        ring
  show (a ++ b).foldl _ 0 = _
  rw [List.foldl_append]
  exact hstart b _

theorem ofDigits_zeros (n : Nat) : ofDigits (Double.zeros n) = 0 := by
  induction n with
  | zero => rfl
  | succ n ih => exact ih

theorem digits_decimalDigits (n : Nat) : Digits (Double.decimalDigits n) :=
  fun _ hc => Nat.isDigit_of_mem_toDigits (by omega) (by omega) hc

theorem digits_zeros (n : Nat) : Digits (Double.zeros n) := by
  intro c hc
  rw [List.eq_of_mem_replicate hc]
  rfl

theorem Digits.append {a b : Chars} (ha : Digits a) (hb : Digits b) : Digits (a ++ b) :=
  fun c hc => (List.mem_append.1 hc).elim (ha c) (hb c)

/-- What follows some digits begins with no digit. -/
def Ends (cs : Chars) : Prop := ∀ c rest, cs = c :: rest → c.isDigit = false

/-- A text is split after its digits where what follows begins with none. -/
theorem span_digits {front rest : Chars} (hfront : Digits front) (hrest : Ends rest) :
    (front ++ rest).span Char.isDigit = (front, rest) := by
  rw [List.span_eq_takeWhile_dropWhile]
  induction front with
  | nil =>
      cases rest with
      | nil => rfl
      | cons c rest =>
          have hc := hrest c rest rfl
          simp [hc]
  | cons c front ih =>
      have hc := hfront c (by simp)
      have htail := ih fun d hd => hfront d (by simp [hd])
      rw [Prod.ext_iff] at htail ⊢
      simp only [List.cons_append, List.takeWhile_cons, List.dropWhile_cons, hc, if_true]
      exact ⟨congrArg (c :: ·) htail.1, htail.2⟩

-- ============================================================ exponents

/-- The exponent that follows the digits of a number. -/
def exponent? : Chars → Option Int
  | [] => some 0
  | e :: rest =>
      let (negative, digits) := unsigned rest
      if (e ≠ 'e' ∧ e ≠ 'E') ∨ digits.isEmpty ∨ !digits.all Char.isDigit then none
      else some (if negative then -(ofDigits digits : Int) else ofDigits digits)

/-- A number with a point is read from the digits on both sides of it. -/
theorem decimal?_point {front back rest : Chars} (hfront : Digits front) (hne : front ≠ [])
    (hback : Digits back) (hrest : Ends rest) :
    decimal? (front ++ '.' :: (back ++ rest))
      = (exponent? rest).map fun e : Int => (ofDigits (front ++ back), e - back.length) := by
  have hpoint : Ends ('.' :: (back ++ rest)) := by
    rintro c tail h
    injection h with hc
    rw [← hc]
    rfl
  have hsome : front.isEmpty = false := by simpa using hne
  unfold decimal?
  simp only [span_digits hfront hpoint, span_digits hback hrest, hsome, Bool.false_and,
    Bool.false_eq_true, if_false]
  cases rest with
  | nil => rfl
  | cons e rest =>
      unfold exponent?
      dsimp only
      split
      · rfl
      · rfl

/-- A number without a point is read from its digits. -/
theorem decimal?_plain {front rest : Chars} (hfront : Digits front) (hne : front ≠ [])
    (hrest : Ends rest) (hpoint : ∀ tail, rest ≠ '.' :: tail) :
    decimal? (front ++ rest) = (exponent? rest).map fun e => (ofDigits front, e) := by
  have hsome : front.isEmpty = false := by simpa using hne
  unfold decimal?
  simp only [span_digits hfront hrest, hsome, Bool.false_and, Bool.false_eq_true, if_false,
    List.append_nil, List.length_nil, Nat.cast_zero, sub_zero]
  cases rest with
  | nil => rfl
  | cons e rest =>
      unfold exponent?
      dsimp only
      split
      · rfl
      · rfl

/-- An exponent as a number is written with it. -/
theorem exponent?_written (negative : Bool) {digits : Chars} (hdigits : Digits digits)
    (hne : digits ≠ []) :
    exponent? ('e' :: (if negative then '-' else '+') :: digits)
      = some (if negative then -(ofDigits digits : Int) else ofDigits digits) := by
  have hsome : digits.isEmpty = false := by simpa using hne
  have hall : digits.all Char.isDigit = true := List.all_eq_true.2 hdigits
  cases negative with
  | true => simp [exponent?, unsigned, hsome, hall]
  | false => simp [exponent?, unsigned, hsome, hall]

theorem ends_exponent (cs : Chars) : Ends ('e' :: cs) := by
  rintro c tail h
  injection h with hc
  rw [← hc]
  rfl

theorem ends_nil : Ends [] := fun _ _ h => by cases h

end Written

namespace Double

open Written

-- ============================================================= reading

/-- A text reads as a decimal of some value. -/
def ReadsAs (cs : Chars) (q : ℚ) : Prop :=
  ∃ (n : ℕ) (e : ℤ), decimal? cs = some (n, e) ∧ (n : ℚ) * 10 ^ e = q

/-- A text reads as one value only. -/
theorem ReadsAs.unique {cs : Chars} {q q' : ℚ} (h : ReadsAs cs q) (h' : ReadsAs cs q') :
    q = q' := by
  obtain ⟨n, e, hread, hvalue⟩ := h
  obtain ⟨n', e', hread', hvalue'⟩ := h'
  rw [hread] at hread'
  injection hread' with hpair
  injection hpair with hn he
  rw [← hvalue, ← hvalue', hn, he]

/-- A text with a point reads as the value of its digits and its exponent. -/
theorem readsAs_point {front back rest : Chars} {e : ℤ} {q : ℚ} (hfront : Digits front)
    (hne : front ≠ []) (hback : Digits back) (hrest : Ends rest) (he : exponent? rest = some e)
    (hq : (ofDigits (front ++ back) : ℚ) * 10 ^ (e - back.length) = q) :
    ReadsAs (front ++ '.' :: (back ++ rest)) q := by
  refine ⟨ofDigits (front ++ back), e - back.length, ?_, hq⟩
  rw [decimal?_point hfront hne hback hrest, he]
  rfl

/-- A text without a point reads as the value of its digits and its
exponent. -/
theorem readsAs_plain {front rest : Chars} {e : ℤ} {q : ℚ} (hfront : Digits front)
    (hne : front ≠ []) (hrest : Ends rest) (hpoint : ∀ tail, rest ≠ '.' :: tail)
    (he : exponent? rest = some e) (hq : (ofDigits front : ℚ) * 10 ^ e = q) :
    ReadsAs (front ++ rest) q := by
  refine ⟨ofDigits front, e, ?_, hq⟩
  rw [decimal?_plain hfront hne hrest hpoint, he]
  rfl

/-- Digits in front of zeros and a point. -/
theorem readsAs_whole {ds : Chars} (hds : Digits ds) (hne : ds ≠ []) {scale : ℤ}
    (hscale : 0 ≤ scale) : ReadsAs (ds ++ zeros scale.toNat ++ ['.', '0'])
      (ofDigits ds * 10 ^ scale) := by
  have hzero : Digits ['0'] := digits_zeros 1
  refine readsAs_point (hds.append (digits_zeros _)) (by simp [hne]) hzero ends_nil rfl ?_
  obtain ⟨k, rfl⟩ := Int.eq_ofNat_of_zero_le hscale
  have hvalue : ofDigits (ds ++ zeros k ++ ['0']) = ofDigits ds * 10 ^ k * 10 := by
    rw [ofDigits_append, ofDigits_append, ofDigits_zeros]
    simp [zeros, ofDigits]
  rw [Int.toNat_natCast, hvalue]
  push_cast
  norm_num
  ring

/-- A point between the digits. -/
theorem readsAs_inner {ds : Chars} (hds : Digits ds) (k : ℕ) (hk : 0 < k) (hlen : k ≤ ds.length)
    {scale : ℤ} (hscale : (k : ℤ) - ds.length = scale) :
    ReadsAs (ds.take k ++ '.' :: ds.drop k) (ofDigits ds * 10 ^ scale) := by
  have htake : Digits (ds.take k) := fun c hc => hds c (List.mem_of_mem_take hc)
  have hdrop : Digits (ds.drop k) := fun c hc => hds c (List.mem_of_mem_drop hc)
  have hne : ds.take k ≠ [] := by
    intro h
    have hlength : min k ds.length = 0 := by rw [← List.length_take, h, List.length_nil]
    omega
  have h := readsAs_point htake hne hdrop ends_nil rfl rfl
  rw [List.append_nil, List.take_append_drop, List.length_drop] at h
  rwa [← hscale, show (k : ℤ) - ds.length = 0 - ((ds.length - k : ℕ) : ℤ) by omega]

/-- Zeros between the point and the digits. -/
theorem readsAs_small {ds : Chars} (hds : Digits ds) (k : ℕ) {scale : ℤ}
    (hscale : -((k + ds.length : ℕ) : ℤ) = scale) :
    ReadsAs ('0' :: '.' :: zeros k ++ ds) (ofDigits ds * 10 ^ scale) := by
  have hvalue : ofDigits (['0'] ++ (zeros k ++ ds)) = ofDigits ds := by
    rw [ofDigits_append, ofDigits_append, ofDigits_zeros]
    simp [ofDigits]
  have hzero : Digits ['0'] := digits_zeros 1
  have h := readsAs_point hzero (by simp) ((digits_zeros k).append hds) ends_nil rfl rfl
  rw [List.append_nil, hvalue, List.length_append, zeros, List.length_replicate, zero_sub,
    hscale] at h
  exact h

/-- An exponent of some digits at least. -/
def exponentText (width : Nat) (lead : ℤ) : Chars :=
  'e' :: (if lead < 0 then '-' else '+')
    :: (zeros (width - (decimalDigits lead.natAbs).length) ++ decimalDigits lead.natAbs)

/-- An exponent that is written is read again. -/
theorem exponent?_exponentText (width : Nat) (lead : ℤ) :
    exponent? (exponentText width lead) = some lead := by
  have hdigits := (digits_zeros (width - (decimalDigits lead.natAbs).length)).append
    (digits_decimalDigits lead.natAbs)
  have hvalue : ofDigits (zeros (width - (decimalDigits lead.natAbs).length)
      ++ decimalDigits lead.natAbs) = lead.natAbs := by
    rw [ofDigits_append, ofDigits_zeros, ofDigits_toDigits, zero_mul, zero_add]
  have hne : zeros (width - (decimalDigits lead.natAbs).length) ++ decimalDigits lead.natAbs ≠ [] :=
    List.append_ne_nil_of_right_ne_nil _ Nat.toDigits_ne_nil
  have h := exponent?_written (decide (lead < 0)) hdigits hne
  rw [hvalue] at h
  unfold exponentText
  by_cases hneg : lead < 0
  · simp only [hneg, decide_true, if_true] at h ⊢
    rw [h]
    congr 1
    omega
  · simp only [hneg, decide_false, Bool.false_eq_true, if_false] at h ⊢
    rw [h]
    congr 1
    omega

/-- Digits with an exponent. -/
theorem readsAs_scientific {ds : Chars} (hds : Digits ds) (hne : ds ≠ []) (width : Nat)
    (lead : ℤ) {scale : ℤ} (hscale : lead - ((ds.length : ℤ) - 1) = scale) :
    ReadsAs (ds.take 1 ++ (if ds.length = 1 then [] else '.' :: ds.drop 1)
      ++ exponentText width lead) (ofDigits ds * 10 ^ scale) := by
  have hexponent := exponent?_exponentText width lead
  have hends : Ends (exponentText width lead) := ends_exponent _
  obtain ⟨c, cs, rfl⟩ := List.exists_cons_of_ne_nil hne
  have hfirst : Digits [c] := fun d hd => hds d (by simp_all)
  have hrest : Digits cs := fun d hd => hds d (by simp [hd])
  rw [List.length_cons] at hscale
  cases cs with
  | nil =>
      have hsame : lead = scale := by simpa using hscale
      subst hsame
      exact readsAs_plain hfirst (by simp) hends (fun tail h => by cases h) hexponent rfl
  | cons c' cs =>
      have h := readsAs_point hfirst (by simp) hrest hends hexponent rfl
      rw [show lead - (((c' :: cs).length : ℕ) : ℤ) = scale by rw [← hscale]; push_cast; ring] at h
      simpa using h

/-- A written decimal reads back. -/
theorem readsAs_write (style : Notation) (d : Decimal) : ReadsAs (style.write d) d.value := by
  have hdigits := digits_decimalDigits d.digits
  have hvalue := ofDigits_toDigits d.digits
  have hsome : decimalDigits d.digits ≠ [] := Nat.toDigits_ne_nil
  have hlength : 0 < (decimalDigits d.digits).length := List.length_pos_iff.2 hsome
  unfold Notation.write Decimal.value
  dsimp only
  generalize decimalDigits d.digits = ds at *
  rw [← hvalue]
  split
  · split
    · next hscale => exact readsAs_whole hdigits hsome hscale
    · next hscale =>
        split
        · next hlead =>
            exact readsAs_inner hdigits (((ds.length : ℤ) - 1 + d.scale).toNat + 1) (by omega)
              (by omega) (by omega)
        · next hlead =>
            exact readsAs_small hdigits (-((ds.length : ℤ) - 1 + d.scale) - 1).toNat (by omega)
  · have h := readsAs_scientific hdigits hsome style.exponentDigits
      ((ds.length : ℤ) - 1 + d.scale) (show _ = d.scale by ring)
    simpa [exponentText] using h

-- ============================================================== texts

/-- The text of a number without its sign. -/
def body (x : Double) : Chars :=
  if x.isZero then ['0', '.', '0'] else plainNotation.write x.shortest

/-- The text of a number is its sign and its body. -/
theorem toList_text (x : Double) :
    x.text.toList = if x.negative then '-' :: x.body else x.body := by
  unfold text
  exact String.toList_ofList

/-- The body reads as a value that rounds to the number. -/
theorem exists_readsAs_body (x : Double) : ∃ q, ReadsAs x.body q ∧ x.Reaches q := by
  unfold body
  split
  · next hzero =>
      have hmantissa : x.mantissa = 0 := by simpa [isZero] using hzero
      refine ⟨0, ⟨0, -1, by decide, by simp⟩, ?_⟩
      have hpos := x.quarter_pos
      unfold Reaches reach
      rw [hmantissa]
      simp [hpos.le]
  · exact ⟨x.shortest.value, readsAs_write _ _, x.reaches_shortest⟩

/-- A sign is not part of what is read. -/
theorem not_readsAs_minus (cs : Chars) (q : ℚ) : ¬ ReadsAs ('-' :: cs) q := by
  rintro ⟨n, e, hread, -⟩
  cases hread

/-- Numbers of one body have one magnitude. -/
theorem body_injective {x y : Double} (h : x.body = y.body) :
    x.mantissa = y.mantissa ∧ x.exponent = y.exponent := by
  obtain ⟨q, hx, hreach⟩ := x.exists_readsAs_body
  obtain ⟨q', hy, hreach'⟩ := y.exists_readsAs_body
  rw [h] at hx
  rw [hx.unique hy] at hreach
  exact reaches_unique hreach hreach'

/-- Different numbers have different texts. -/
theorem text_injective {x y : Double} (h : x.text = y.text) : x = y := by
  have hchars : (if x.negative then '-' :: x.body else x.body)
      = if y.negative then '-' :: y.body else y.body := by
    rw [← toList_text, ← toList_text, h]
  have hsigned : ∀ z w : Double, '-' :: z.body ≠ w.body := by
    intro z w hsame
    obtain ⟨q, hread, -⟩ := w.exists_readsAs_body
    rw [← hsame] at hread
    exact not_readsAs_minus _ _ hread
  have hsame : x.negative = y.negative ∧ x.body = y.body := by
    cases hx : x.negative with
    | true =>
        cases hy : y.negative with
        | true =>
            rw [hx, hy] at hchars
            injection hchars with _ hbody
            exact ⟨rfl, hbody⟩
        | false =>
            rw [hx, hy] at hchars
            exact absurd hchars (hsigned x y)
    | false =>
        cases hy : y.negative with
        | true =>
            rw [hx, hy] at hchars
            exact absurd hchars.symm (hsigned y x)
        | false =>
            rw [hx, hy] at hchars
            exact ⟨rfl, hchars⟩
  obtain ⟨hmantissa, hexponent⟩ := body_injective hsame.2
  obtain ⟨negative, mantissa, exponent, canonical⟩ := x
  obtain ⟨negative', mantissa', exponent', canonical'⟩ := y
  obtain rfl : negative = negative' := hsame.1
  obtain rfl : mantissa = mantissa' := hmantissa
  obtain rfl : exponent = exponent' := hexponent
  rfl

-- ========================================================== characters

/-- The characters of numerals. -/
def isNumeral (c : Char) : Bool := c.isDigit || c ∈ ['.', 'e', '+', '-']

theorem isNumeral_of_isDigit {c : Char} (h : c.isDigit = true) : isNumeral c = true := by
  unfold isNumeral
  rw [h, Bool.true_or]

/-- What marks a number as no whole one. -/
def IsMark (c : Char) : Prop := c = '.' ∨ c = 'e'

/-- Characters of a numeral with a mark among them. -/
structure Fractional (cs : Chars) : Prop where
  numeral : ∀ c ∈ cs, isNumeral c = true
  marked : ∃ c ∈ cs, IsMark c

/-- Digits, a mark and more of a numeral are no whole number. -/
theorem Fractional.between {front back : Chars} {mark : Char} (hfront : Digits front)
    (hmark : IsMark mark) (hback : ∀ c ∈ back, isNumeral c = true) :
    Fractional (front ++ mark :: back) := by
  refine ⟨?_, mark, by simp, hmark⟩
  intro c hc
  rcases List.mem_append.1 hc with hc | _ | ⟨_, hc⟩
  · exact isNumeral_of_isDigit (hfront c hc)
  · rcases hmark with rfl | rfl
    · rfl
    · rfl
  · exact hback c hc

/-- An exponent has characters of a numeral only. -/
theorem numeral_exponentText (width : Nat) (lead : ℤ) :
    ∀ c ∈ exponentText width lead, isNumeral c = true := by
  unfold exponentText
  rintro c (_ | ⟨_, _ | ⟨_, hc⟩⟩)
  · rfl
  · split
    · rfl
    · rfl
  · rcases List.mem_append.1 hc with hc | hc
    · exact isNumeral_of_isDigit (digits_zeros _ c hc)
    · exact isNumeral_of_isDigit (digits_decimalDigits _ c hc)

/-- A written decimal has a point or an exponent. -/
theorem fractional_write (style : Notation) (d : Decimal) : Fractional (style.write d) := by
  have hdigits := digits_decimalDigits d.digits
  have hpoint : IsMark '.' := .inl rfl
  have hzeros := fun n => (digits_zeros n).append hdigits
  unfold Notation.write
  dsimp only
  generalize decimalDigits d.digits = ds at *
  have htake : ∀ n, Digits (ds.take n) := fun n c hc => hdigits c (List.mem_of_mem_take hc)
  have hdrop : ∀ n, Digits (ds.drop n) := fun n c hc => hdigits c (List.mem_of_mem_drop hc)
  split
  · split
    · exact .between (hdigits.append (digits_zeros _)) hpoint (by simp [isNumeral])
    · split
      · exact .between (htake _) hpoint fun c hc => isNumeral_of_isDigit (hdrop _ c hc)
      · exact .between (digits_zeros 1) hpoint fun c hc => isNumeral_of_isDigit (hzeros _ c hc)
  · have hexponent := numeral_exponentText style.exponentDigits ((ds.length : ℤ) - 1 + d.scale)
    split
    · have h := Fractional.between (htake 1) (.inr rfl : IsMark 'e') fun c hc =>
        hexponent c (List.mem_cons_of_mem _ hc)
      simpa [exponentText] using h
    · have hback : ∀ c ∈ ds.drop 1 ++ exponentText style.exponentDigits
          ((ds.length : ℤ) - 1 + d.scale), isNumeral c = true := fun c hc =>
        (List.mem_append.1 hc).elim (fun hc => isNumeral_of_isDigit (hdrop 1 c hc)) (hexponent c)
      have h := Fractional.between (htake 1) hpoint hback
      simpa [exponentText] using h

/-- The text of a number is a numeral with a point or an exponent. -/
theorem fractional_text (x : Double) : Fractional x.text.toList := by
  have hbody : Fractional x.body := by
    unfold body
    split
    · exact ⟨List.all_eq_true.1 rfl, '.', by simp, .inl rfl⟩
    · exact fractional_write _ _
  rw [toList_text]
  split
  · obtain ⟨c, hc, hmark⟩ := hbody.marked
    refine ⟨?_, c, List.mem_cons_of_mem _ hc, hmark⟩
    rintro d (_ | ⟨_, hd⟩)
    · rfl
    · exact hbody.numeral d hd
  · exact hbody

end Double

end Depot
