/-
Alphabets, and what anchored patterns make of them. An alphabet is the list of
its characters, and a word over it has no others, wherever in the code table
these may be (`mem_iff_between`, `IsWord`).

A pattern that is to hold of a whole text has an anchor at either end. The
anchor at the end also holds in front of one line feed that ends the text. So
the pattern accepts what it describes and, beside that, the same with a line
feed behind it (`anchored_iff`).
-/
import Depot.Text.Basic
import Mathlib.Data.List.Infix

namespace Depot.Text

-- =========================================================== alphabets

/-- The small letters of the English alphabet. -/
def smallLetters : List Char := "abcdefghijklmnopqrstuvwxyz".toList

/-- The capital letters of the English alphabet. -/
def capitalLetters : List Char := "ABCDEFGHIJKLMNOPQRSTUVWXYZ".toList

/-- The digits from 0 to 9. -/
def plainDigits : List Char := "0123456789".toList

/-- A list of characters that has every code between two others, and no code
beyond, is told by comparing with these two. -/
theorem mem_iff_between {letters : List Char} {first last : Char}
    (within : (letters.all fun c => first ≤ c && c ≤ last) = true)
    (listed : ∀ i < last.toNat + 1 - first.toNat, Char.ofNat (first.toNat + i) ∈ letters)
    {c : Char} : c ∈ letters ↔ (first ≤ c && c ≤ last) = true := by
  constructor
  · exact List.all_eq_true.1 within c
  · intro h
    obtain ⟨hlow, hhigh⟩ := Bool.and_eq_true_iff.1 h
    have hlow : first.toNat ≤ c.toNat := of_decide_eq_true hlow
    have hhigh : c.toNat ≤ last.toNat := of_decide_eq_true hhigh
    have hcode : first.toNat + (c.toNat - first.toNat) = c.toNat := by omega
    have hin := listed (c.toNat - first.toNat) (by omega)
    rwa [hcode, Char.ofNat_toNat] at hin

theorem mem_smallLetters {c : Char} : c ∈ smallLetters ↔ ('a' ≤ c && c ≤ 'z') = true :=
  mem_iff_between (by decide) (by decide)

theorem mem_capitalLetters {c : Char} : c ∈ capitalLetters ↔ ('A' ≤ c && c ≤ 'Z') = true :=
  mem_iff_between (by decide) (by decide)

theorem mem_plainDigits {c : Char} : c ∈ plainDigits ↔ ('0' ≤ c && c ≤ '9') = true :=
  mem_iff_between (by decide) (by decide)

/-- A word over an alphabet: some of its characters, one at least. -/
structure IsWord (alphabet cs : List Char) : Prop where
  given : cs ≠ []
  characters : ∀ c ∈ cs, c ∈ alphabet

-- ============================================================= anchors

variable {cs : List Char}

/-- A text is of some kind, or one of this kind has a line feed behind it. -/
def UpToLineFeed (kind : List Char → Prop) (cs : List Char) : Prop :=
  kind cs ∨ ∃ body, kind body ∧ cs = body ++ ['\n']

/-- What a pattern reads that is anchored at both ends: the text without the
line feed that may end it. No text of the kind may end in one itself. -/
theorem anchored_iff {kind : List Char → Prop}
    (unended : ∀ body, kind body → body.getLast? ≠ some '\n') :
    kind (if cs.getLast? = some '\n' then cs.dropLast else cs) ↔ UpToLineFeed kind cs := by
  constructor
  · intro h
    by_cases hlast : cs.getLast? = some '\n'
    · rw [if_pos hlast] at h
      exact .inr ⟨cs.dropLast, h, (List.dropLast_append_getLast? '\n' hlast).symm⟩
    · rw [if_neg hlast] at h
      exact .inl h
  · intro h
    rcases h with h | ⟨body, h, rfl⟩
    · rw [if_neg (unended cs h)]
      exact h
    · rw [if_pos (by simp), List.dropLast_concat]
      exact h

/-- A repetition of the characters of an alphabet between two anchors. -/
theorem isWholly_iff {ok : Char → Bool} {alphabet : List Char}
    (spelled : ∀ c, ok c = true ↔ c ∈ alphabet) (plain : '\n' ∉ alphabet) :
    isWholly ok cs = true ↔ UpToLineFeed (IsWord alphabet) cs := by
  have unended : ∀ body, IsWord alphabet body → body.getLast? ≠ some '\n' := by
    intro body h hlast
    exact plain (h.characters '\n' (List.mem_of_getLast? hlast))
  rw [← anchored_iff unended]
  unfold isWholly
  simp only [Bool.and_eq_true, Bool.not_eq_true', List.isEmpty_eq_false_iff, List.all_eq_true,
    spelled]
  constructor
  · intro h
    exact ⟨h.1, h.2⟩
  · intro h
    exact ⟨h.given, h.characters⟩

-- ============================================================ stretches

/-- Looking for a part finds the stretches of a text. -/
theorem occursIn_iff {part : List Char} : occursIn part cs = true ↔ part <:+: cs := by
  induction cs with
  | nil => simp [occursIn]
  | cons c cs ih =>
      rw [occursIn, Bool.or_eq_true, List.isPrefixOf_iff_prefix, ih, List.infix_cons_iff]

end Depot.Text
