/-
Small letters piece by piece. All letters but one have their small form
wherever they stand; the capital sigma looks at the letters around it. So
the small form of a text is that of its pieces, each of them of a length
of its own, and a piece without a capital sigma is the same in any text
(`exists_lowerAfter_append`). Where two texts that agree around two such
pieces have one small form, that is enough to tell the pieces off from the
text around them (`lower_around`).

A text is left alone by either mapping if each of its letters is
(`upper_eq_self`, `lower_eq_self`).
-/
import Depot.Text.Case
import Mathlib.Data.List.Basic

namespace Depot.Text

/-- The small form of a text letter by letter, without regard to what stands
around a letter. -/
def letters (cs : List Char) : List Char := cs.flatMap lowerOne

theorem length_lowerOne_sigma : (lowerOne 'Σ').length = 1 := by decide

/-- The small form of a text begins with that of its first piece. -/
theorem exists_lowerAfter_append (before xs ys : List Char) :
    ∃ piece, lowerAfter before (xs ++ ys) = piece ++ lowerAfter (xs.reverse ++ before) ys
      ∧ piece.length = (letters xs).length ∧ ('Σ' ∉ xs → piece = letters xs) := by
  induction xs generalizing before with
  | nil => exact ⟨[], rfl, rfl, fun _ => rfl⟩
  | cons c xs ih =>
      obtain ⟨piece, hpiece, hlength, hplain⟩ := ih (c :: before)
      have hrest : xs.reverse ++ c :: before = (c :: xs).reverse ++ before := by simp
      rw [hrest] at hpiece
      by_cases hc : c = 'Σ'
      · refine ⟨(if meetsLetter before && !meetsLetter (xs ++ ys) then 'ς' else 'σ') :: piece,
          ?_, ?_, fun hnone => absurd (by simp [hc]) hnone⟩
        · rw [List.cons_append, lowerAfter, if_pos hc, hpiece]
          rfl
        · have hone := length_lowerOne_sigma
          rw [hc, letters, List.flatMap_cons, List.length_append, hone, List.length_cons, hlength,
            letters]
          omega
      · refine ⟨lowerOne c ++ piece, ?_, ?_, fun hnone => ?_⟩
        · rw [List.cons_append, lowerAfter, if_neg hc, hpiece, List.append_assoc]
        · rw [letters, List.flatMap_cons, List.length_append, List.length_append, hlength, letters]
        · rw [hplain fun h => hnone (by simp [h]), letters, letters, List.flatMap_cons]

/-- Without a capital sigma the small form goes letter by letter. -/
theorem lowerAfter_eq_letters {cs : List Char} (before : List Char) (h : 'Σ' ∉ cs) :
    lowerAfter before cs = letters cs := by
  obtain ⟨piece, hpiece, -, hplain⟩ := exists_lowerAfter_append before cs []
  rw [List.append_nil] at hpiece
  rw [hpiece, hplain h]
  exact List.append_nil _

theorem lower_eq_letters {cs : List Char} (h : 'Σ' ∉ cs) : lower cs = letters cs :=
  lowerAfter_eq_letters [] h

/-- Without a capital sigma the small form of a text is that of its pieces. -/
theorem lower_append {xs ys : List Char} (hxs : 'Σ' ∉ xs) (hys : 'Σ' ∉ ys) :
    lower (xs ++ ys) = lower xs ++ lower ys := by
  have hnone : 'Σ' ∉ xs ++ ys := by simp [hxs, hys]
  rw [lower_eq_letters hnone, lower_eq_letters hxs, lower_eq_letters hys, letters, letters, letters,
    List.flatMap_append]

/-- Two texts with two pieces each, alike in front of the first, between the
two and nowhere else: if their small forms are one, then that of one first
piece begins with that of the other, and where the first pieces have one
small form the second have, too. -/
theorem lower_around {front first first' between second second' : List Char}
    (hfirst : 'Σ' ∉ first) (hfirst' : 'Σ' ∉ first') (hsecond : 'Σ' ∉ second)
    (hsecond' : 'Σ' ∉ second')
    (h : lower (front ++ (first ++ (between ++ second)))
      = lower (front ++ (first' ++ (between ++ second')))) :
    (lower first <+: lower first' ∨ lower first' <+: lower first)
      ∧ (lower first = lower first' → lower second = lower second') := by
  have hparts : ∀ {first second : List Char}, 'Σ' ∉ first → 'Σ' ∉ second →
      ∃ f b, lower (front ++ (first ++ (between ++ second)))
          = f ++ (lower first ++ (b ++ lower second))
        ∧ f.length = (letters front).length ∧ b.length = (letters between).length := by
    intro first second hfirst hsecond
    obtain ⟨f, hf, hflength, -⟩ :=
      exists_lowerAfter_append [] front (first ++ (between ++ second))
    obtain ⟨p, hp, -, hpplain⟩ :=
      exists_lowerAfter_append (front.reverse ++ []) first (between ++ second)
    obtain ⟨b, hb, hblength, -⟩ :=
      exists_lowerAfter_append (first.reverse ++ (front.reverse ++ [])) between second
    refine ⟨f, b, ?_, hflength, hblength⟩
    rw [lower, hf, hp, hb, hpplain hfirst, lowerAfter_eq_letters _ hsecond,
      lower_eq_letters hfirst, lower_eq_letters hsecond]
  obtain ⟨f, b, hlower, hf, hb⟩ := hparts hfirst hsecond
  obtain ⟨f', b', hlower', hf', hb'⟩ := hparts hfirst' hsecond'
  rw [hlower, hlower'] at h
  have hrest := (List.append_inj h (hf.trans hf'.symm)).2
  constructor
  · rcases List.append_eq_append_iff.1 hrest with ⟨more, hmore, -⟩ | ⟨more, hmore, -⟩
    · exact .inl ⟨more, hmore.symm⟩
    · exact .inr ⟨more, hmore.symm⟩
  · intro hsame
    rw [hsame] at hrest
    exact (List.append_inj (List.append_cancel_left hrest) (hb.trans hb'.symm)).2

-- ==================================================== texts left alone

theorem upper_eq_self {cs : List Char} (h : ∀ c ∈ cs, upperOne c = [c]) : upper cs = cs :=
  (List.flatMap_congr h).trans (List.flatMap_singleton' cs)

/-- A capital sigma has a small form, so there is none in such a text. -/
theorem lower_eq_self {cs : List Char} (h : ∀ c ∈ cs, lowerOne c = [c]) : lower cs = cs := by
  have hnone : 'Σ' ∉ cs := fun hsigma => absurd (h 'Σ' hsigma) (by decide)
  rw [lower_eq_letters hnone]
  exact (List.flatMap_congr h).trans (List.flatMap_singleton' cs)

end Depot.Text
