/-
Texts cut at a mark. Two parts that are joined around a mark can be told
apart again only if the mark does not stand in them: a text with several
marks can be cut at each of them, and any two ways of cutting one text are
the same or one of them is cut later (`append_mark_inj`). Cutting at every
mark goes piece by piece (`cut_append_mark`).
-/
import Depot.Text.Basic
import Mathlib.Data.List.Basic

namespace Depot

namespace Text

variable {mark : Char} {front back front' back' : List Char}

/-- The two sides of a mark, cut at a later mark of the same text: what
lies between the marks goes from the back to the front. -/
def CutLater (mark : Char) (front back front' back' : List Char) : Prop :=
  ∃ between, front' = front ++ mark :: between ∧ back = between ++ mark :: back'

/-- Two texts with a mark are one if they are cut at the same mark, or one
of them at a later one. -/
theorem append_mark_inj :
    front ++ mark :: back = front' ++ mark :: back'
      ↔ (front = front' ∧ back = back') ∨ CutLater mark front back front' back'
        ∨ CutLater mark front' back' front back := by
  constructor
  · intro h
    rcases List.append_eq_append_iff.1 h with ⟨rest, hfront, hback⟩ | ⟨rest, hfront, hback⟩
    · cases rest with
      | nil =>
          simp only [List.append_nil, List.nil_append, List.cons.injEq, true_and] at hfront hback
          exact .inl ⟨hfront.symm, hback⟩
      | cons c between =>
          simp only [List.cons_append, List.cons.injEq] at hback
          obtain ⟨rfl, hback⟩ := hback
          exact .inr (.inl ⟨between, hfront, hback⟩)
    · cases rest with
      | nil =>
          simp only [List.append_nil, List.nil_append, List.cons.injEq, true_and] at hfront hback
          exact .inl ⟨hfront, hback.symm⟩
      | cons c between =>
          simp only [List.cons_append, List.cons.injEq] at hback
          obtain ⟨rfl, hback⟩ := hback
          exact .inr (.inr ⟨between, hfront, hback⟩)
  · rintro (⟨rfl, rfl⟩ | ⟨between, rfl, rfl⟩ | ⟨between, rfl, rfl⟩)
    · rfl
    · simp
    · simp

theorem not_cutLater (h : mark ∉ front') : ¬ CutLater mark front back front' back' := by
  rintro ⟨between, rfl, -⟩
  exact h (by simp)

/-- There is always a piece. -/
theorem cut_ne_nil (mark : Char) (cs : List Char) : cut mark cs ≠ [] := by
  cases cs with
  | nil => simp [cut]
  | cons c rest =>
      unfold cut
      split
      · simp
      · split <;> simp

/-- A text without the mark is one piece. -/
theorem cut_of_not_mem {cs : List Char} (h : mark ∉ cs) : cut mark cs = [cs] := by
  induction cs with
  | nil => rfl
  | cons c rest ih =>
      have hc : c ≠ mark := fun hc => h (by simp [hc])
      have hrest : mark ∉ rest := fun hrest => h (by simp [hrest])
      rw [cut, if_neg hc, ih hrest]

/-- The pieces of two texts around a mark are those of the one and then
those of the other. -/
theorem cut_append_mark (front back : List Char) :
    cut mark (front ++ mark :: back) = cut mark front ++ cut mark back := by
  induction front with
  | nil => simp [cut]
  | cons c rest ih =>
      rw [List.cons_append, cut, cut, ih]
      by_cases hc : c = mark
      · rw [if_pos hc, if_pos hc, List.cons_append]
      · rw [if_neg hc, if_neg hc]
        rcases hcut : cut mark rest with _ | ⟨piece, pieces⟩
        · exact absurd hcut (cut_ne_nil mark rest)
        · rfl

/-- The pieces of a text have all of its characters but the marks. -/
theorem flatten_cut (mark : Char) (cs : List Char) :
    (cut mark cs).flatten = cs.filter (· ≠ mark) := by
  induction cs with
  | nil => rfl
  | cons c rest ih =>
      rw [cut]
      by_cases hc : c = mark
      · rw [if_pos hc, List.flatten_cons, List.nil_append, ih]
        simp [hc]
      · rw [if_neg hc, List.filter_cons_of_pos (by simpa using hc), ← ih]
        rcases cut mark rest with _ | ⟨piece, pieces⟩
        · rfl
        · rfl

/-- A text with the mark has at least two pieces. -/
theorem cut_length_of_mem {cs : List Char} (h : mark ∈ cs) : 2 ≤ (cut mark cs).length := by
  obtain ⟨front, back, rfl⟩ := List.append_of_mem h
  have hfront := List.length_pos_iff.2 (cut_ne_nil mark front)
  have hback := List.length_pos_iff.2 (cut_ne_nil mark back)
  rw [cut_append_mark, List.length_append]
  omega

end Text

end Depot
