/-
The first occurrences of the items of a list. Items count as one if they are
equal up to the order of keys, that is, if they are equal once ordered; of
several such items the first one stays (`mem_firstOccurrences_iff`). It makes no
difference whether repetitions are left out of a front part before
(`firstOccurrences_append`), and what comes after a list adds nothing if the
list has it already (`firstOccurrences_append_of_mem`).
-/
import Depot.Proofs.Value.Identity

namespace Depot.Value

/-- The items of a list without those that repeat an earlier one up to the
order of keys. -/
def firstOccurrences : List Value → List Value
  | [] => []
  | v :: vs => v :: (firstOccurrences vs).filter fun w => w.ordered ≠ v.ordered

-- ================================================================ items

/-- First occurrences stand in the order of the list. -/
theorem firstOccurrences_sublist (items : List Value) :
    (firstOccurrences items).Sublist items := by
  induction items with
  | nil => exact .slnil
  | cons v vs ih => exact (List.filter_sublist.trans ih).cons_cons v

/-- Every item is there up to the order of keys. -/
theorem exists_firstOccurrence {items : List Value} {x : Value} (hx : x ∈ items) :
    ∃ y ∈ firstOccurrences items, y.wire = x.wire := by
  induction items with
  | nil => cases hx
  | cons v vs ih =>
      rcases List.mem_cons.1 hx with rfl | hx
      · exact ⟨x, List.mem_cons_self, rfl⟩
      · obtain ⟨y, hy, hwire⟩ := ih hx
        by_cases hsame : y.wire = v.wire
        · exact ⟨v, List.mem_cons_self, hsame.symm.trans hwire⟩
        · refine ⟨y, List.mem_cons_of_mem v (List.mem_filter.2 ⟨hy, ?_⟩), hwire⟩
          simpa [← wire_eq_iff] using hsame

/-- The value is an item, and nothing before it is equal to it. -/
def IsFirst (v : Value) (items : List Value) : Prop :=
  ∃ before after, items = before ++ v :: after ∧ ∀ w ∈ before, w.ordered ≠ v.ordered

/-- No two first occurrences are the same when ordered. -/
theorem nodup_firstOccurrences (items : List Value) :
    ((firstOccurrences items).map ordered).Nodup := by
  induction items with
  | nil => exact List.nodup_nil
  | cons v items ih =>
      rw [firstOccurrences, List.map_cons, List.nodup_cons]
      constructor
      · simp
      · exact ih.sublist (List.filter_sublist.map ordered)

/-- The first occurrences are those items that are the first of their kind. -/
theorem mem_firstOccurrences_iff {v : Value} {items : List Value} :
    v ∈ firstOccurrences items ↔ v.IsFirst items := by
  induction items with
  | nil => simp [firstOccurrences, IsFirst]
  | cons w items ih =>
      rw [firstOccurrences, List.mem_cons, List.mem_filter, ih]
      constructor
      · intro h
        rcases h with rfl | ⟨⟨before, after, rfl, hbefore⟩, hother⟩
        · exact ⟨[], items, rfl, by simp⟩
        · refine ⟨w :: before, after, rfl, List.forall_mem_cons.2 ⟨?_, hbefore⟩⟩
          exact Ne.symm (by simpa using hother)
      · intro h
        obtain ⟨before, after, hitems, hbefore⟩ := h
        cases before with
        | nil =>
            injection hitems with hw
            exact .inl hw.symm
        | cons u before =>
            injection hitems with hw hrest
            subst hw
            obtain ⟨hother, hbefore⟩ := List.forall_mem_cons.1 hbefore
            exact .inr ⟨⟨before, after, hrest, hbefore⟩, by simpa using Ne.symm hother⟩

-- ========================================================== joined lists

/-- Leaving out what equals a value commutes with leaving out repetitions. -/
theorem filter_firstOccurrences (v : Value) (items : List Value) :
    (firstOccurrences items).filter (fun w => w.ordered ≠ v.ordered)
      = firstOccurrences (items.filter fun w => w.ordered ≠ v.ordered) := by
  induction items with
  | nil => rfl
  | cons u items ih =>
      rw [firstOccurrences, List.filter_cons, List.filter_cons]
      by_cases hu : u.ordered = v.ordered
      · rw [if_neg (by simpa using hu), if_neg (by simpa using hu), ← ih, hu, List.filter_filter]
        simp
      · rw [if_pos (by simpa using hu), if_pos (by simpa using hu), firstOccurrences, ← ih,
          List.filter_comm]

/-- Repetitions may be left out of the items in front before they are left out
of all. -/
theorem firstOccurrences_append (items more : List Value) :
    firstOccurrences (firstOccurrences items ++ more) = firstOccurrences (items ++ more) := by
  induction items with
  | nil => rfl
  | cons v items ih =>
      rw [firstOccurrences, List.cons_append, List.cons_append, firstOccurrences,
        firstOccurrences, ← ih]
      refine congrArg (v :: ·) ?_
      calc (firstOccurrences ((firstOccurrences items).filter (fun w => w.ordered ≠ v.ordered)
              ++ more)).filter (fun w => w.ordered ≠ v.ordered)
          = firstOccurrences (((firstOccurrences items).filter (fun w => w.ordered ≠ v.ordered)
              ++ more).filter fun w => w.ordered ≠ v.ordered) := filter_firstOccurrences v _
        _ = firstOccurrences ((firstOccurrences items ++ more).filter
              fun w => w.ordered ≠ v.ordered) := by
            rw [List.filter_append, List.filter_append, List.filter_filter]
            simp
        _ = (firstOccurrences (firstOccurrences items ++ more)).filter
              fun w => w.ordered ≠ v.ordered := (filter_firstOccurrences v _).symm

/-- Items that come again later add nothing. -/
theorem firstOccurrences_append_of_mem {items more : List Value} (h : ∀ w ∈ more, w ∈ items) :
    firstOccurrences (items ++ more) = firstOccurrences items := by
  have hsplit : firstOccurrences (items ++ more) = firstOccurrences items
      ++ (firstOccurrences more).filter fun w => ∀ v ∈ items, w.ordered ≠ v.ordered := by
    clear h
    induction items with
    | nil => simp [firstOccurrences]
    | cons v items ih =>
        rw [List.cons_append, firstOccurrences, ih, firstOccurrences, List.filter_append,
          List.filter_filter, List.cons_append]
        simp
  rw [hsplit, List.filter_eq_nil_iff.2, List.append_nil]
  intro w hw
  have hmem := h w ((firstOccurrences_sublist more).subset hw)
  simpa using ⟨w, hmem, rfl⟩

end Depot.Value
