/-
Requirements by priority. Where priorities are unset or count as numbers,
each requirement has a rank, sorting never fails and is the stable sort of
a list by falling rank (`sortByPriority_eq`). So members of one rank keep
their order, and the requirement that comes out first is the leading one:
the same that the handler of conflicting values looks for by another way, the
position of the greatest rank.
-/
import Depot.Proofs.Merge.Priority
import Depot.Requirement.Grouping
import Mathlib.Data.List.Sort

namespace Depot.Requirement

/-- The priority is not set, or it counts as a number. -/
def Ranked (r : Requirement) : Prop := r.priority = .null ∨ r.priority.Counts

/-- What the effective priority counts as. -/
def rank (r : Requirement) : ℚ := r.effectivePriority.size

theorem Ranked.counts {r : Requirement} (h : r.Ranked) : r.effectivePriority.Counts := by
  unfold effectivePriority
  split
  · exact ⟨_, rfl⟩
  · next hset => exact h.resolve_left hset

variable {α : Type} {of : α → Requirement} {items : List α}

-- ============================================================= sorting

/-- An item may stand in front of another. -/
def MayPrecede (of : α → Requirement) (x y : α) : Prop := rank (of y) ≤ rank (of x)

instance : DecidableRel (MayPrecede of) := fun x y =>
  inferInstanceAs (Decidable (rank (of y) ≤ rank (of x)))

instance : Std.Total (MayPrecede of) := ⟨fun x y => le_total (rank (of y)) (rank (of x))⟩

instance : IsTrans α (MayPrecede of) := ⟨fun _ _ _ hxy hyz => hyz.trans hxy⟩

/-- Between ranked items an item is inserted where the order has its place. -/
theorem insertByPriority_eq {item : α} (ranked : ∀ x ∈ item :: items, (of x).Ranked) :
    insertByPriority of item items = .ok (items.orderedInsert (MayPrecede of) item) := by
  induction items with
  | nil => rfl
  | cons other rest ih =>
      have hcompare : Value.compare .below (of item).effectivePriority (of other).effectivePriority
          = .ok (decide (rank (of item) < rank (of other))) :=
        Value.compare_below (ranked item (by simp)).counts (ranked other (by simp)).counts
      have hrest : ∀ x ∈ item :: rest, (of x).Ranked := by
        intro x hx
        apply ranked
        rcases List.mem_cons.1 hx with rfl | hx
        · simp
        · simp [hx]
      rw [insertByPriority, hcompare, List.orderedInsert_cons]
      by_cases hbelow : rank (of item) < rank (of other)
      · have hnot : ¬ MayPrecede of item other := not_le.2 hbelow
        rw [if_neg hnot, ih hrest, decide_eq_true hbelow]
        rfl
      · have hmay : MayPrecede of item other := not_lt.1 hbelow
        rw [if_pos hmay, decide_eq_false hbelow]
        rfl

/-- Sorting by priority is a stable sort by falling rank. -/
theorem sortByPriority_eq (ranked : ∀ x ∈ items, (of x).Ranked) :
    sortByPriority of items = .ok (items.insertionSort (MayPrecede of)) := by
  induction items with
  | nil => rfl
  | cons item rest ih =>
      obtain ⟨hitem, hrest⟩ := List.forall_mem_cons.1 ranked
      have hsorted : ∀ x ∈ item :: rest.insertionSort (MayPrecede of), (of x).Ranked := by
        refine List.forall_mem_cons.2 ⟨hitem, fun x hx => hrest x ?_⟩
        exact (List.mem_insertionSort _).1 hx
      rw [sortByPriority, ih hrest]
      exact insertByPriority_eq hsorted

/-- Members of one rank keep their order. -/
theorem filter_insertionSort (of : α → Requirement) (items : List α) (q : ℚ) :
    (items.insertionSort (MayPrecede of)).filter (fun x => rank (of x) = q)
      = items.filter fun x => rank (of x) = q := by
  have hlevel : (items.filter fun x => rank (of x) = q).Pairwise (MayPrecede of) := by
    refine List.pairwise_of_forall_mem_list fun x hx y hy => ?_
    have hx' : rank (of x) = q := by simpa using (List.mem_filter.1 hx).2
    have hy' : rank (of y) = q := by simpa using (List.mem_filter.1 hy).2
    exact (hy'.trans hx'.symm).le
  have hsublist := (List.sublist_insertionSort hlevel List.filter_sublist).filter
    fun x => rank (of x) = q
  rw [List.filter_filter] at hsublist
  simp only [Bool.and_self] at hsublist
  refine (hsublist.eq_of_length ?_).symm
  exact ((List.perm_insertionSort (MayPrecede of) items).filter _).length_eq.symm

-- =============================================================== winner

/-- What a stable sort has in front leads the items. -/
theorem leading_of_sorted {best : α} {rest : List α}
    (h : items.insertionSort (MayPrecede of) = best :: rest) :
    Leading (fun x => rank (of x)) items best := by
  have hsorted := List.pairwise_insertionSort (MayPrecede of) items
  rw [h] at hsorted
  have hmost : ∀ x ∈ items, rank (of x) ≤ rank (of best) := by
    intro x hx
    have hx' : x ∈ best :: rest := by
      rw [← h]
      exact (List.mem_insertionSort _).2 hx
    rcases List.mem_cons.1 hx' with rfl | hx'
    · exact le_refl _
    · exact (List.pairwise_cons.1 hsorted).1 x hx'
  have hlevel := filter_insertionSort of items (rank (of best))
  rw [h, List.filter_cons_of_pos (by simp)] at hlevel
  obtain ⟨before, after, rfl, hbefore, -, -⟩ := List.filter_eq_cons_iff.1 hlevel.symm
  refine ⟨before, after, rfl, fun x hx => ?_, fun x hx => hmost x (by simp [hx])⟩
  refine lt_of_le_of_ne (hmost x (by simp [hx])) ?_
  simpa using hbefore x hx

/-- The requirement that is taken for the highest is the leading one. -/
theorem highestPriority_leading (ranked : ∀ x ∈ items, (of x).Ranked) (given : items ≠ []) :
    ∃ best, highestPriority of items = .ok best
      ∧ Leading (fun x => rank (of x)) items best := by
  cases hsorted : items.insertionSort (MayPrecede of) with
  | nil =>
      have hperm := List.perm_insertionSort (MayPrecede of) items
      rw [hsorted] at hperm
      exact absurd hperm.nil_eq.symm given
  | cons best rest =>
      refine ⟨best, ?_, leading_of_sorted hsorted⟩
      rw [highestPriority, sortByPriority_eq ranked, hsorted]
      rfl

/-- Sorting by priority rearranges the requirements by falling rank, those of
one rank in the order in which they stood. The first of the highest rank is
the one that counts as the highest, and it is the one whose value the handler
of conflicting values takes, unless that cannot write what it has to. -/
theorem winners_agree (of : α → Requirement) (value : α → Value) (source : α → String)
    (path : Value) (ranked : ∀ x ∈ items, (of x).Ranked) :
    (∃ sorted, sortByPriority of items = .ok sorted ∧ sorted.Perm items
        ∧ sorted.Pairwise (fun x y => rank (of y) ≤ rank (of x))
        ∧ ∀ q, sorted.filter (fun x => rank (of x) = q) = items.filter fun x => rank (of x) = q)
      ∧ (items ≠ [] → ∃ best, highestPriority of items = .ok best
        ∧ Leading (fun x => rank (of x)) items best
        ∧ Answers (∀ x ∈ items, (value x).isWritable = true
              ∧ (of x).effectivePriority.isWritable = true)
            (Merge.priority (items.map value) ⟨path, (items.map source).map .str,
              items.map fun x => (of x).effectivePriority⟩)
            fun outcome => outcome.value = value best) := by
  refine ⟨⟨_, sortByPriority_eq ranked, List.perm_insertionSort _ items,
    List.pairwise_insertionSort (MayPrecede of) items, filter_insertionSort of items⟩, ?_⟩
  intro given
  obtain ⟨best, hbest, hleads⟩ := highestPriority_leading ranked given
  refine ⟨best, hbest, hleads, Answers.imp (Merge.priority_of_leading path value _ source
    (fun x hx => (ranked x hx).counts) hleads ?_ ?_) fun outcome h => h.1⟩
  · exact fun h x hx => (h x hx).1
  · exact fun _ h x hx => (h x hx).2

/-- A priority that is not set ties with the default one, and the earlier
requirement of the two wins. -/
theorem unset_priority_wins_tie :
    let sized := fun (size : Int) (priority : Value) =>
      (⟨.str "queue", .str "jobs", [("size", .int size)], priority, .absent⟩ : Requirement)
    let requirements := [sized 1 (.int 5), sized 2 .null, sized 3 (.int 10)]
    sortByPriority id requirements = .ok [sized 2 .null, sized 3 (.int 10), sized 1 (.int 5)]
      ∧ ∃ outcome, Merge.priority (requirements.map fun r => .object r.config)
          ⟨.str "config", (requirements.map fun _ => "team").map .str,
            requirements.map effectivePriority⟩ = .ok outcome
        ∧ outcome.value = .object [("size", .int 2)] := by
  intro sized requirements
  have ranked : ∀ r ∈ requirements, r.Ranked := by
    simp [requirements, sized, Ranked, Value.Counts, Value.ratio?]
  have hsorted : sortByPriority id requirements
      = .ok [sized 2 .null, sized 3 (.int 10), sized 1 (.int 5)] := rfl
  have hhighest : highestPriority id requirements = .ok (sized 2 .null) := rfl
  obtain ⟨-, hwinner⟩ := winners_agree id (fun r => .object r.config) (fun _ => "team")
    (.str "config") ranked
  obtain ⟨best, hbest, -, hanswers⟩ := hwinner (by simp [requirements])
  rw [hhighest] at hbest
  cases hbest
  exact ⟨hsorted, hanswers.exists_ok (by decide)⟩

/-- The handler fails where a value cannot be written, whatever its priority,
and where it has something to say about sources that are no texts. -/
theorem winner_is_refused_unless_written :
    (Merge.priority [.int Written.leastTooLong, .int 5] ⟨.str "config", [.str "a", .str "b"],
        [.int 20, .int 10]⟩).toOption = none
    ∧ (Merge.priority [.int 1, .int 2] ⟨.str "config", [.int 5, .int 6],
        [.int 10, .int 10]⟩).toOption = none :=
  ⟨by decide +kernel, by decide +kernel⟩

end Depot.Requirement
