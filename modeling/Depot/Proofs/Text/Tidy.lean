/-
Tidy texts: over an alphabet, with a mark in it that neither begins nor ends
the text and does not stand twice in a row. Three passes make a text tidy. What
is outside the alphabet is replaced by the mark, runs of the mark are made
single, and the mark is stripped from both ends.

Each pass brings about one part of this and keeps the parts that were there
before: what squeezing leaves is a selection of the text, and what stripping
leaves is one stretch of it (`isTidy_tidy`). And each pass leaves a text alone
that has its part already, so all three leave a tidy text as it is
(`tidy_eq_self`). Behind a case mapping that keeps the alphabet's own characters, the passes are
therefore a projection onto the tidy texts (`isProjection_tidy`).
-/
import Depot.Text.Basic
import Mathlib.Data.List.DropRight
import Mathlib.Data.List.Infix

namespace Depot.Text

variable {cs : List Char}

-- =========================================================== replacing

section Replacing

variable {keep : Char → Bool} {mark : Char}

/-- After replacing there is nothing but what is kept. -/
theorem keep_of_mem_replaceOutside (hmark : keep mark = true) {c : Char}
    (hc : c ∈ replaceOutside keep mark cs) : keep c = true := by
  obtain ⟨d, -, rfl⟩ := List.mem_map.1 hc
  by_cases hd : keep d = true
  · rw [if_pos hd]
    exact hd
  · rw [if_neg hd]
    exact hmark

theorem replaceOutside_eq_self (h : ∀ c ∈ cs, keep c = true) :
    replaceOutside keep mark cs = cs := by
  refine (List.map_congr_left fun c hc => ?_).trans (List.map_id cs)
  exact if_pos (h c hc)

end Replacing

-- =========================================================== squeezing

section Squeezing

variable {mark : Char}

/-- Squeezing only leaves characters out. -/
theorem squeeze_sublist (mark : Char) (cs : List Char) : (squeeze mark cs).Sublist cs := by
  induction cs with
  | nil => exact List.Sublist.refl []
  | cons c rest ih =>
      rw [squeeze]
      split
      · exact ih.cons c
      · exact ih.cons_cons c

/-- A run keeps its last mark, so a text begins as before. -/
theorem head?_squeeze (mark : Char) (cs : List Char) : (squeeze mark cs).head? = cs.head? := by
  induction cs with
  | nil => rfl
  | cons c rest ih =>
      rw [squeeze]
      split
      · next h => rw [ih, h.1, h.2, List.head?_cons]
      · rfl

/-- Two marks in a row begin a text that begins with one and goes on with
another. -/
theorem double_prefix_cons_iff {c : Char} :
    [mark, mark] <+: c :: cs ↔ c = mark ∧ cs.head? = some mark := by
  rw [List.cons_prefix_cons, List.singleton_prefix_iff_head?_eq_some, eq_comm (a := c)]

/-- No run is left with two marks. A kept mark is the last of its run, and what
follows it begins as it did before. -/
theorem not_double_squeeze (mark : Char) (cs : List Char) :
    ¬ [mark, mark] <:+: squeeze mark cs := by
  induction cs with
  | nil => simp [squeeze]
  | cons c rest ih =>
      rw [squeeze]
      split
      · exact ih
      · next hkept =>
          rw [List.infix_cons_iff, double_prefix_cons_iff, head?_squeeze]
          exact not_or.2 ⟨hkept, ih⟩

/-- Without double marks nothing is squeezed. -/
theorem squeeze_eq_self (h : ¬ [mark, mark] <:+: cs) : squeeze mark cs = cs := by
  induction cs with
  | nil => rfl
  | cons c rest ih =>
      rw [List.infix_cons_iff, double_prefix_cons_iff, not_or] at h
      rw [squeeze, if_neg h.1, ih h.2]

end Squeezing

-- =========================================================== stripping

section Stripping

variable {mark : Char → Bool}

theorem dropTrailing_eq (mark : Char → Bool) (cs : List Char) :
    dropTrailing mark cs = cs.rdropWhile mark := rfl

/-- What is left is one stretch of the text. -/
theorem strip_infix (mark : Char → Bool) (cs : List Char) : strip mark cs <:+: cs := by
  have hfront : cs.dropWhile mark <:+ cs := List.dropWhile_suffix mark
  have hback : strip mark cs <+: cs.dropWhile mark := List.rdropWhile_prefix mark _
  exact hback.isInfix.trans hfront.isInfix

/-- What is no mark is not dropped at the ends. -/
theorem mem_strip {c : Char} (hc : c ∈ cs) (h : mark c = false) : c ∈ strip mark cs := by
  have mem_dropWhile : ∀ {cs : List Char}, c ∈ cs → c ∈ cs.dropWhile mark := by
    intro cs hc
    rw [← List.takeWhile_append_dropWhile (p := mark) (l := cs)] at hc
    refine (List.mem_append.1 hc).resolve_left fun hdropped => ?_
    rw [List.mem_takeWhile_imp hdropped] at h
    cases h
  unfold strip dropTrailing
  rw [List.mem_reverse]
  exact mem_dropWhile (List.mem_reverse.2 (mem_dropWhile hc))

/-- A stripped text does not begin with a mark. -/
theorem first_of_strip {c : Char} (h : (strip mark cs).head? = some c) : mark c = false := by
  have hback : strip mark cs <+: cs.dropWhile mark := List.rdropWhile_prefix mark _
  have hfirst : (cs.dropWhile mark).head? = some c := by
    rw [← List.singleton_prefix_iff_head?_eq_some] at h ⊢
    exact h.trans hback
  have hnot := List.head?_dropWhile_not mark cs
  rw [hfirst] at hnot
  exact hnot

/-- A stripped text does not end with a mark. -/
theorem last_of_strip {c : Char} (h : (strip mark cs).getLast? = some c) : mark c = false := by
  have hne : strip mark cs ≠ [] := by
    intro hnil
    rw [hnil] at h
    cases h
  rw [List.getLast?_eq_some_getLast hne] at h
  injection h with hlast
  rw [← hlast]
  exact Bool.eq_false_iff.2 (List.rdropWhile_last_not mark _ hne)

/-- A text that does neither is stripped already. -/
theorem strip_eq_self (first : ∀ c, cs.head? = some c → mark c = false)
    (last : ∀ c, cs.getLast? = some c → mark c = false) : strip mark cs = cs := by
  have hfront : cs.dropWhile mark = cs := by
    refine List.dropWhile_eq_self_iff.2 fun hlength => ?_
    rw [first cs[0] (by simp [List.head?_eq_getElem?])]
    exact Bool.false_ne_true
  unfold strip
  rw [hfront, dropTrailing_eq]
  refine List.rdropWhile_eq_self_iff.2 fun hne => ?_
  rw [last _ (List.getLast?_eq_some_getLast hne)]
  exact Bool.false_ne_true

end Stripping

-- ================================================================ tidy

variable {keep : Char → Bool} {alphabet : List Char} {mark : Char}

/-- A text over an alphabet, with no mark at either end and no two in a row. -/
structure IsTidy (alphabet : List Char) (mark : Char) (cs : List Char) : Prop where
  characters : ∀ c ∈ cs, c ∈ alphabet
  first : cs.head? ≠ some mark
  last : cs.getLast? ≠ some mark
  single : ¬ [mark, mark] <:+: cs

/-- The three passes one after the other. -/
def tidy (keep : Char → Bool) (mark : Char) (cs : List Char) : List Char :=
  strip (· = mark) (squeeze mark (replaceOutside keep mark cs))

/-- What is tidied is tidy. -/
theorem isTidy_tidy (spelled : ∀ c, keep c = true ↔ c ∈ alphabet) (hmark : mark ∈ alphabet)
    (cs : List Char) : IsTidy alphabet mark (tidy keep mark cs) := by
  have hstretch : tidy keep mark cs <:+: squeeze mark (replaceOutside keep mark cs) :=
    strip_infix _ _
  constructor
  case characters =>
    intro c hc
    have hreplaced : c ∈ replaceOutside keep mark cs :=
      (squeeze_sublist mark _).subset (hstretch.subset hc)
    exact (spelled c).1 (keep_of_mem_replaceOutside ((spelled mark).2 hmark) hreplaced)
  case first =>
    intro h
    simpa using first_of_strip h
  case last =>
    intro h
    simpa using last_of_strip h
  case single =>
    intro h
    exact not_double_squeeze mark _ (h.trans hstretch)

/-- What is tidy stays as it is. -/
theorem tidy_eq_self (spelled : ∀ c, keep c = true ↔ c ∈ alphabet)
    (h : IsTidy alphabet mark cs) : tidy keep mark cs = cs := by
  have hreplaced : replaceOutside keep mark cs = cs :=
    replaceOutside_eq_self fun c hc => (spelled c).2 (h.characters c hc)
  unfold tidy
  rw [hreplaced, squeeze_eq_self h.single]
  refine strip_eq_self (fun c hc => ?_) (fun c hc => ?_)
  · exact decide_eq_false fun hcm => h.first (hcm ▸ hc)
  · exact decide_eq_false fun hcm => h.last (hcm ▸ hc)

/-- Two tidy texts around a mark have no other mark next to it. -/
theorem IsTidy.not_double_around {front back : List Char} (hfront : IsTidy alphabet mark front)
    (hback : IsTidy alphabet mark back) : ¬ [mark, mark] <:+: front ++ mark :: back := by
  intro h
  rcases List.infix_append_iff_ne_nil.1 h with h | h | ⟨left, right, hleft, hright, hcut, hend, -⟩
  · exact hfront.single h
  · rcases List.infix_cons_iff.1 h with h | h
    · exact hback.first (double_prefix_cons_iff.1 h).2
    · exact hback.single h
  · -- cut in two, the marks leave one at the end of the front
    obtain ⟨c, left, rfl⟩ := List.exists_cons_of_ne_nil hleft
    obtain ⟨hc, hrest⟩ := List.cons_eq_cons.1 hcut
    obtain ⟨rfl, -⟩ := (List.append_eq_singleton_iff.1 hrest.symm).resolve_right fun hnone =>
      hright hnone.2
    rw [← hc, List.singleton_suffix_iff_getLast?_eq_some] at hend
    exact hfront.last hend

-- ========================================================= projections

/-- A pass over texts that brings each into a form, and leaves alone those that
have it. -/
structure IsProjection (pass : List Char → List Char) (form : List Char → Prop) : Prop where
  formed : ∀ cs, form (pass cs)
  kept : ∀ cs, form cs → pass cs = cs

namespace IsProjection

variable {pass : List Char → List Char} {form : List Char → Prop}

/-- What has the form is what the pass leaves alone. -/
theorem eq_self_iff (h : IsProjection pass form) (cs : List Char) : pass cs = cs ↔ form cs := by
  constructor
  · intro heq
    rw [← heq]
    exact h.formed cs
  · exact h.kept cs

/-- A projection changes nothing the second time. -/
theorem idempotent (h : IsProjection pass form) (cs : List Char) :
    pass (pass cs) = pass cs :=
  h.kept (pass cs) (h.formed cs)

end IsProjection

/-- Tidying after folding is a projection, if folding leaves the alphabet
alone. -/
theorem isProjection_tidy {fold : List Char → List Char}
    (spelled : ∀ c, keep c = true ↔ c ∈ alphabet) (hmark : mark ∈ alphabet)
    (hfold : ∀ cs, (∀ c ∈ cs, c ∈ alphabet) → fold cs = cs) :
    IsProjection (fun cs => tidy keep mark (fold cs)) (IsTidy alphabet mark) where
  formed cs := isTidy_tidy spelled hmark (fold cs)
  kept cs h := by
    show tidy keep mark (fold cs) = cs
    rw [hfold cs h.characters, tidy_eq_self spelled h]

end Depot.Text
