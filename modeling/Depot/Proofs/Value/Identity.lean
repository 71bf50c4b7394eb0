/-
The identity of a value. Values have the same text exactly when they are
the same once the keys of all their mappings are put in order
(`wire_eq_iff`): the text is that of the value so ordered
(`keyChars_eq`), and a wire text can be taken apart in one way only
(`wireChars_cancel`).

A reader of wire texts needs to know where a value ends. Texts, lists and
mappings carry their ends; a number ends where no further character of a
numeral follows, and what follows a value inside a structure never is one.
-/
import Depot.Proofs.Number.Text
import Depot.Proofs.Text.Wire
import Depot.Value.Order
import Depot.Value.Text

namespace Depot.Value

-- ============================================================== ordered

mutual
/-- The value with the keys of all its mappings in order. -/
def ordered : Value → Value
  | .list xs => .list (orderedItems xs)
  | .object fs => .object (sortEntries (orderedFields fs))
  | v => v
/-- The items of a list, ordered. -/
def orderedItems : List Value → List Value
  | [] => []
  | v :: vs => ordered v :: orderedItems vs
/-- The entries of a mapping with their values ordered. -/
def orderedFields : List (String × Value) → List (String × Value)
  | [] => []
  | (k, v) :: fs => (k, ordered v) :: orderedFields fs
end

theorem orderedItems_eq (xs : List Value) : orderedItems xs = xs.map ordered := by
  induction xs with
  | nil => rfl
  | cons x xs ih => rw [orderedItems, ih, List.map_cons]

theorem orderedFields_eq (fs : Fields) : orderedFields fs = fs.map fun e => (e.1, e.2.ordered) := by
  induction fs with
  | nil => rfl
  | cons e fs ih =>
      obtain ⟨k, v⟩ := e
      rw [orderedFields, ih, List.map_cons]

/-- Only lists and mappings change when they are ordered, and to lists and
mappings. -/
theorem eq_of_ordered_eq {v w : Value} (hv : v.canName = true) (h : v.ordered = w.ordered) :
    v = w := by
  have hkept : ∀ u : Value, u.canName = true → u.ordered = u := by
    intro u hu
    cases u with
    | list xs => cases hu
    | object fs => cases hu
    | _ => rfl
  have hname : ∀ u : Value, u.ordered.canName = u.canName := by
    intro u
    cases u with
    | _ => rfl
  have hw : w.canName = true := by rw [← hname, ← h, hname, hv]
  rw [← hkept v hv, h, hkept w hw]

-- ================================================================ wire

mutual
/-- The wire text of a value, keys as they stand. -/
def wireChars : Value → List Char
  | .null => "null".toList
  | .bool true => "true".toList
  | .bool false => "false".toList
  | .int n => (toString n).toList
  | .float x => x.text.toList
  | .str s => Text.wire s.toList
  | .list xs => '[' :: joinChars comma (wireItems xs) ++ [']']
  | .object fs => '\x7b' :: joinChars comma (wireFields fs) ++ ['\x7d']
/-- The wire texts of a list's items. -/
def wireItems : List Value → List (List Char)
  | [] => []
  | v :: vs => wireChars v :: wireItems vs
/-- The wire texts of a mapping's entries. -/
def wireFields : List (String × Value) → List (List Char)
  | [] => []
  | (k, v) :: fs => (Text.wire k.toList ++ colon ++ wireChars v) :: wireFields fs
end

theorem wireFields_eq (fs : Fields) :
    wireFields fs = fs.map fun e => Text.wire e.1.toList ++ colon ++ e.2.wireChars := by
  induction fs with
  | nil => rfl
  | cons e fs ih =>
      obtain ⟨k, v⟩ := e
      rw [wireFields, ih, List.map_cons]

/-- Sorting entries looks at their keys only. -/
theorem sortEntries_map {α β : Type} (f : α → β) (entries : List (String × α)) :
    sortEntries (entries.map fun e => (e.1, f e.2))
      = (sortEntries entries).map fun e => (e.1, f e.2) := by
  unfold sortEntries
  refine (List.map_mergeSort ?_).symm
  intro a _ b _
  rfl

mutual
/-- The identity of a value is the wire text of the value ordered. -/
theorem keyChars_eq : ∀ v : Value, v.keyChars = v.ordered.wireChars
  | .null | .bool true | .bool false | .int _ | .float _ | .str _ => rfl
  | .list xs => by
      rw [keyChars, ordered, wireChars, keyItems_eq xs]
  | .object fs => by
      rw [keyChars, ordered, wireChars, wireFields_eq, keyFields_eq fs, sortEntries_map,
        List.map_map]
      rfl
theorem keyItems_eq : ∀ xs : List Value, keyItems xs = wireItems (orderedItems xs)
  | [] => rfl
  | v :: vs => by rw [keyItems, orderedItems, wireItems, keyChars_eq v, keyItems_eq vs]
theorem keyFields_eq : ∀ fs : Fields,
    keyFields fs = (orderedFields fs).map fun e => (e.1, e.2.wireChars)
  | [] => rfl
  | (k, v) :: fs => by
      rw [keyFields, orderedFields, List.map_cons, keyChars_eq v, keyFields_eq fs]
end

-- ============================================================= numbers

/-- What follows a value in a structure is no part of a numeral. -/
def Stops (cs : List Char) : Prop := ∀ c rest, cs = c :: rest → Double.isNumeral c = false

/-- Numerals that agree up to their ends are the same. -/
theorem numeral_cancel {a b r s : List Char} (ha : ∀ c ∈ a, Double.isNumeral c = true)
    (hb : ∀ c ∈ b, Double.isNumeral c = true) (hr : Stops r) (hs : Stops s)
    (h : a ++ r = b ++ s) : a = b ∧ r = s := by
  induction a generalizing b with
  | nil =>
      cases b with
      | nil => exact ⟨rfl, h⟩
      | cons d b =>
          have hstop := hr d (b ++ s) h
          rw [hb d List.mem_cons_self] at hstop
          cases hstop
  | cons c a ih =>
      cases b with
      | nil =>
          have hstop := hs c (a ++ r) h.symm
          rw [ha c List.mem_cons_self] at hstop
          cases hstop
      | cons d b =>
          injection h with hc htail
          obtain ⟨hab, hrs⟩ := ih (fun c hc => ha c (List.mem_cons_of_mem _ hc))
            (fun c hc => hb c (List.mem_cons_of_mem _ hc)) htail
          exact ⟨by rw [hc, hab], hrs⟩

/-- A whole number is written in digits, behind a sign if it is negative. -/
theorem toList_toString_int (n : Int) : (toString n).toList
    = (if n < 0 then ['-'] else []) ++ Double.decimalDigits n.natAbs := by
  cases n with
  | ofNat m =>
      show m.repr.toList = _
      have hnot : ¬ Int.ofNat m < 0 := Int.not_lt.2 (Int.natCast_nonneg m)
      rw [Nat.toList_repr, if_neg hnot]
      rfl
  | negSucc m =>
      show ("-" ++ (m + 1).repr).toList = _
      rw [String.toList_append, Nat.toList_repr, if_pos (Int.negSucc_lt_zero m)]
      rfl

/-- A whole number is written with digits and a sign. -/
theorem int_chars (n : Int) : ∀ c ∈ (toString n).toList, c = '-' ∨ c.isDigit = true := by
  rw [toList_toString_int]
  intro c hc
  rcases List.mem_append.1 hc with hc | hc
  · split at hc
    · exact .inl (List.mem_singleton.1 hc)
    · cases hc
  · exact .inr (Written.digits_decimalDigits _ c hc)

/-- Whole numbers of one text are one number. -/
theorem toString_int_injective {n m : Int} (h : toString n = toString m) : n = m := by
  have hchars := congrArg String.toList h
  rw [toList_toString_int, toList_toString_int] at hchars
  have hdigits : ∀ {a b : Nat}, Double.decimalDigits a = Double.decimalDigits b → a = b := by
    intro a b hab
    rw [← Written.ofDigits_toDigits a, hab, Written.ofDigits_toDigits]
  have hsign : ∀ {a b : Nat}, '-' :: Double.decimalDigits a ≠ Double.decimalDigits b := by
    intro a b hab
    have hminus : '-' ∈ Double.decimalDigits b := by
      rw [← hab]
      exact List.mem_cons_self
    cases Written.digits_decimalDigits b '-' hminus
  by_cases hn : n < 0
  · by_cases hm : m < 0
    · rw [if_pos hn, if_pos hm] at hchars
      have habs := hdigits (List.cons_inj_right _ |>.1 hchars)
      omega
    · rw [if_pos hn, if_neg hm] at hchars
      exact absurd hchars hsign
  · by_cases hm : m < 0
    · rw [if_neg hn, if_pos hm] at hchars
      exact absurd hchars.symm hsign
    · rw [if_neg hn, if_neg hm] at hchars
      have habs := hdigits hchars
      omega

theorem numeral_int (n : Int) : ∀ c ∈ (toString n).toList, Double.isNumeral c = true := by
  intro c hc
  rcases int_chars n c hc with rfl | hdigit
  · rfl
  · exact Double.isNumeral_of_isDigit hdigit

/-- No whole number is written like a fraction. -/
theorem text_ne_int (x : Double) (n : Int) : x.text.toList ≠ (toString n).toList := by
  intro h
  obtain ⟨c, hc, hmark⟩ := x.fractional_text.marked
  rw [h] at hc
  rcases int_chars n c hc with rfl | hdigit
  · rcases hmark with hmark | hmark
    · cases hmark
    · cases hmark
  · rcases hmark with rfl | rfl
    · cases hdigit
    · cases hdigit

/-- Numbers in front of texts that do not go on with one can be told apart. -/
theorem number_cancel {v w : Value} (hv : v.isNumber = true) (hw : w.isNumber = true)
    {r s : List Char} (hr : Stops r) (hs : Stops s)
    (h : v.wireChars ++ r = w.wireChars ++ s) : v = w ∧ r = s := by
  have hnumeral : ∀ u : Value, u.isNumber = true →
      ∀ c ∈ u.wireChars, Double.isNumeral c = true := by
    intro u hu
    cases u with
    | int n => exact numeral_int n
    | float x => exact x.fractional_text.numeral
    | _ => cases hu
  obtain ⟨hchars, hrest⟩ := numeral_cancel (hnumeral v hv) (hnumeral w hw) hr hs h
  refine ⟨?_, hrest⟩
  cases v with
  | int n => cases w with
    | int m => exact congrArg Value.int (toString_int_injective (String.toList_inj.1 hchars))
    | float y => exact absurd hchars.symm (text_ne_int y n)
    | _ => cases hw
  | float x => cases w with
    | int m => exact absurd hchars (text_ne_int x m)
    | float y => exact congrArg Value.float (Double.text_injective (String.toList_inj.1 hchars))
    | _ => cases hw
  | _ => cases hv

-- =============================================================== kinds

/-- The kind of value that begins with a character. -/
def kindOfLead : Char → String
  | 'n' => "null"
  | 't' | 'f' => "boolean"
  | '"' => "string"
  | '[' => "array"
  | '\x7b' => "object"
  | c => if Double.isNumeral c then "number" else ""

/-- A wire text begins with a character that tells the kind of its value. -/
theorem exists_lead (v : Value) : ∃ c cs, v.wireChars = c :: cs ∧ kindOfLead c = v.kind := by
  have hnumber : ∀ cs : List Char, cs ≠ [] → (∀ c ∈ cs, Double.isNumeral c = true) →
      ∃ c rest, cs = c :: rest ∧ kindOfLead c = "number" := by
    intro cs hne hall
    obtain ⟨c, rest, rfl⟩ := List.exists_cons_of_ne_nil hne
    refine ⟨c, rest, rfl, ?_⟩
    have hc := hall c List.mem_cons_self
    unfold kindOfLead
    split
    · cases hc
    · cases hc
    · cases hc
    · cases hc
    · cases hc
    · cases hc
    · rw [if_pos hc]
  cases v with
  | null => exact ⟨_, _, rfl, rfl⟩
  | bool b => cases b with
    | true => exact ⟨_, _, rfl, rfl⟩
    | false => exact ⟨_, _, rfl, rfl⟩
  | int n =>
      refine hnumber _ ?_ (numeral_int n)
      rw [wireChars, toList_toString_int]
      exact List.append_ne_nil_of_right_ne_nil _ Nat.toDigits_ne_nil
  | float x =>
      obtain ⟨c, hc, -⟩ := x.fractional_text.marked
      exact hnumber _ (List.ne_nil_of_mem hc) x.fractional_text.numeral
  | str s => exact ⟨_, _, rfl, rfl⟩
  | list xs => exact ⟨_, _, rfl, rfl⟩
  | object fs => exact ⟨_, _, rfl, rfl⟩

/-- No wire text begins like the end of a structure. -/
theorem wireChars_ne_close {v : Value} {c : Char} (hclose : kindOfLead c = "")
    (rest tail : List Char) : v.wireChars ++ rest ≠ c :: tail := by
  intro h
  obtain ⟨d, cs, hv, hkind⟩ := v.exists_lead
  rw [hv] at h
  injection h with hlead
  rw [hlead, hclose] at hkind
  cases v with
  | _ => simp [kind] at hkind

/-- Wire texts that agree up to their ends are of values of one kind. -/
theorem kind_eq_of_wire {v w : Value} {r s : List Char}
    (h : v.wireChars ++ r = w.wireChars ++ s) : v.kind = w.kind := by
  obtain ⟨c, cs, hv, hkind⟩ := v.exists_lead
  obtain ⟨d, ds, hw, hkind'⟩ := w.exists_lead
  rw [hv, hw] at h
  injection h with hlead
  rw [← hkind, ← hkind', hlead]

-- ========================================================== structures

/-- The parts of a structure after its first. -/
def furtherParts (parts : List (List Char)) : List Char := parts.flatMap fun t => comma ++ t

/-- Joined texts are the first and then the others, each after a comma. -/
theorem joinChars_cons (t : List Char) (ts : List (List Char)) :
    joinChars comma (t :: ts) = t ++ furtherParts ts := by
  induction ts generalizing t with
  | nil => exact (List.append_nil t).symm
  | cons u ts ih =>
      rw [joinChars, ih u, furtherParts, furtherParts, List.flatMap_cons, List.append_assoc,
        List.append_assoc]
      simp

/-- What follows a part of a structure stops a numeral. -/
theorem stops_further {parts : List (List Char)} {close : Char} {rest : List Char}
    (hclose : Double.isNumeral close = false) : Stops (furtherParts parts ++ close :: rest) := by
  intro c tail h
  cases parts with
  | nil =>
      injection h with hc
      rw [← hc]
      exact hclose
  | cons t parts =>
      injection h with hc
      rw [← hc]
      rfl

/-- A list up to its end. -/
theorem list_wire (xs : List Value) (r : List Char) : (Value.list xs).wireChars ++ r
    = '[' :: (match xs with
      | [] => ']' :: r
      | x :: xs => x.wireChars ++ (furtherParts (wireItems xs) ++ ']' :: r)) := by
  cases xs with
  | nil => rfl
  | cons x xs => simp [wireChars, wireItems, joinChars_cons]

/-- A mapping up to its end. -/
theorem object_wire (fs : Fields) (r : List Char) : (Value.object fs).wireChars ++ r
    = '\x7b' :: (match fs with
      | [] => '\x7d' :: r
      | (k, v) :: fs => Text.wire k.toList ++ (colon ++ (v.wireChars
          ++ (furtherParts (wireFields fs) ++ '\x7d' :: r)))) := by
  cases fs with
  | nil => rfl
  | cons e fs => simp [wireChars, wireFields, joinChars_cons]

mutual
/-- Wire texts that agree up to their ends are of the same value, and end in
the same place. -/
theorem wireChars_cancel : ∀ (v w : Value) {r s : List Char}, Stops r → Stops s →
    v.wireChars ++ r = w.wireChars ++ s → v = w ∧ r = s
  | .null, w, r, s, _, _, h => by
      have hkind := kind_eq_of_wire h
      cases w with
      | null => exact ⟨rfl, List.append_cancel_left h⟩
      | _ => simp [kind] at hkind
  | .bool b, w, r, s, _, _, h => by
      have hkind := kind_eq_of_wire h
      cases w with
      | bool c => cases b with
        | true => cases c with
          | true => exact ⟨rfl, List.append_cancel_left h⟩
          | false => cases h
        | false => cases c with
          | true => cases h
          | false => exact ⟨rfl, List.append_cancel_left h⟩
      | _ => simp [kind] at hkind
  | .int n, w, r, s, hr, hs, h => by
      have hkind := kind_eq_of_wire h
      cases w with
      | int m => exact number_cancel rfl rfl hr hs h
      | float y => exact number_cancel rfl rfl hr hs h
      | _ => simp [kind] at hkind
  | .float x, w, r, s, hr, hs, h => by
      have hkind := kind_eq_of_wire h
      cases w with
      | int m => exact number_cancel rfl rfl hr hs h
      | float y => exact number_cancel rfl rfl hr hs h
      | _ => simp [kind] at hkind
  | .str a, w, r, s, _, _, h => by
      have hkind := kind_eq_of_wire h
      cases w with
      | str b =>
          obtain ⟨hab, hrest⟩ := Text.wire_cancel h
          exact ⟨congrArg Value.str (String.toList_inj.1 hab), hrest⟩
      | _ => simp [kind] at hkind
  | .list xs, w, r, s, _, _, h => by
      have hkind := kind_eq_of_wire h
      cases w with
      | list ys =>
          rw [list_wire, list_wire] at h
          injection h with _ h
          match xs, ys with
          | [], [] =>
              injection h with _ hrest
              exact ⟨rfl, hrest⟩
          | [], y :: ys => exact absurd h.symm (wireChars_ne_close rfl _ _)
          | x :: xs, [] => exact absurd h (wireChars_ne_close rfl _ _)
          | x :: xs, y :: ys =>
              obtain ⟨hxy, hrest⟩ := wireChars_cancel x y (stops_further rfl) (stops_further rfl) h
              obtain ⟨hxys, hrest⟩ := wireItems_cancel xs ys hrest
              exact ⟨by rw [hxy, hxys], hrest⟩
      | _ => simp [kind] at hkind
  | .object fs, w, r, s, _, _, h => by
      have hkind := kind_eq_of_wire h
      cases w with
      | object gs =>
          rw [object_wire, object_wire] at h
          injection h with _ h
          match fs, gs with
          | [], [] =>
              injection h with _ hrest
              exact ⟨rfl, hrest⟩
          | [], (l, w) :: gs => cases h
          | (k, v) :: fs, [] => cases h
          | (k, v) :: fs, (l, w) :: gs =>
              obtain ⟨hkl, hrest⟩ := Text.wire_cancel h
              obtain ⟨hvw, hrest⟩ := wireChars_cancel v w (stops_further rfl) (stops_further rfl)
                (List.append_cancel_left hrest)
              obtain ⟨hfgs, hrest⟩ := wireFields_cancel fs gs hrest
              exact ⟨by rw [String.toList_inj.1 hkl, hvw, hfgs], hrest⟩
      | _ => simp [kind] at hkind
/-- The same for the items of a list after the first. -/
theorem wireItems_cancel : ∀ (xs ys : List Value) {r s : List Char},
    furtherParts (wireItems xs) ++ ']' :: r = furtherParts (wireItems ys) ++ ']' :: s →
      xs = ys ∧ r = s
  | [], [], r, s, h => by
      injection h with _ hrest
      exact ⟨rfl, hrest⟩
  | [], y :: ys, r, s, h => by cases h
  | x :: xs, [], r, s, h => by cases h
  | x :: xs, y :: ys, r, s, h => by
      have hparts : comma ++ (x.wireChars ++ (furtherParts (wireItems xs) ++ ']' :: r))
          = comma ++ (y.wireChars ++ (furtherParts (wireItems ys) ++ ']' :: s)) := by
        simpa [furtherParts, wireItems] using h
      obtain ⟨hxy, hrest⟩ := wireChars_cancel x y (stops_further rfl) (stops_further rfl)
        (List.append_cancel_left hparts)
      obtain ⟨hxys, hrest⟩ := wireItems_cancel xs ys hrest
      exact ⟨by rw [hxy, hxys], hrest⟩
/-- The same for the entries of a mapping after the first. -/
theorem wireFields_cancel : ∀ (fs gs : List (String × Value)) {r s : List Char},
    furtherParts (wireFields fs) ++ '\x7d' :: r = furtherParts (wireFields gs) ++ '\x7d' :: s →
      fs = gs ∧ r = s
  | [], [], r, s, h => by
      injection h with _ hrest
      exact ⟨rfl, hrest⟩
  | [], (k, w) :: gs, r, s, h => by cases h
  | (k, v) :: fs, [], r, s, h => by cases h
  | (k, v) :: fs, (l, w) :: gs, r, s, h => by
      have hparts : comma ++ (Text.wire k.toList ++ (colon ++ (v.wireChars
            ++ (furtherParts (wireFields fs) ++ '\x7d' :: r))))
          = comma ++ (Text.wire l.toList ++ (colon ++ (w.wireChars
            ++ (furtherParts (wireFields gs) ++ '\x7d' :: s)))) := by
        simpa [furtherParts, wireFields] using h
      obtain ⟨hkl, hrest⟩ := Text.wire_cancel (List.append_cancel_left hparts)
      obtain ⟨hvw, hrest⟩ := wireChars_cancel v w (stops_further rfl) (stops_further rfl)
        (List.append_cancel_left hrest)
      obtain ⟨hfgs, hrest⟩ := wireFields_cancel fs gs hrest
      exact ⟨by rw [String.toList_inj.1 hkl, hvw, hfgs], hrest⟩
end

/-- Values have one wire text exactly when they are the same with the keys of
all their mappings in order. -/
theorem wire_eq_iff (v w : Value) : v.wire = w.wire ↔ v.ordered = w.ordered := by
  have hnil : Stops [] := fun _ _ h => by cases h
  unfold wire
  rw [String.ofList_inj, keyChars_eq, keyChars_eq]
  constructor
  · intro h
    refine (wireChars_cancel v.ordered w.ordered hnil hnil ?_).1
    rw [h]
  · intro h
    rw [h]

end Depot.Value
