/-
Which values can be written. A whole number can if it has few enough digits
(`isWritable_iff`), and a value can if all numbers in it can. The order of
keys has no part in that (`isWritable_ordered`). So values of one wire text can
be written, both or neither, and keys tell apart just what wire texts do
(`key_eq_iff`).

Whoever writes values has one way to fail, the same for all of them. So a walk
that writes the items of a list succeeds if the list as a value can be written
(`mapM_written`), and so it is with any text that shows several values
(`Shows`). What comes of a longer course of such steps is there unless
something cannot be written (`Answers`).
-/
import Depot.Proofs.Value.Identity
import Depot.Proofs.Work
import Depot.Value.Writing

namespace Depot

namespace Written

/-- The least whole number of too many digits. -/
def leastTooLong : Int := (10 ^ mostDigits : Nat)

end Written

namespace Value

-- ========================================================= the key order

mutual
/-- The order of keys has no part in whether a value can be written. -/
theorem isWritable_ordered : ∀ v : Value, v.ordered.isWritable = v.isWritable
  | .null | .bool _ | .int _ | .float _ | .str _ => rfl
  | .list xs => by rw [ordered, isWritable, isWritable, itemsWritable_ordered xs]
  | .object fs => by
      have hsorted : (sortEntries (orderedFields fs)).Perm (orderedFields fs) :=
        List.mergeSort_perm _ _
      rw [ordered, isWritable, isWritable, fieldsWritable_eq, hsorted.all_eq,
        ← fieldsWritable_eq, fieldsWritable_ordered fs]
/-- The same for the items of a list. -/
theorem itemsWritable_ordered : ∀ xs : List Value,
    itemsWritable (orderedItems xs) = itemsWritable xs
  | [] => rfl
  | v :: vs => by
      rw [orderedItems, itemsWritable, itemsWritable, isWritable_ordered v,
        itemsWritable_ordered vs]
/-- The same for the entries of a mapping. -/
theorem fieldsWritable_ordered : ∀ fs : List (String × Value),
    fieldsWritable (orderedFields fs) = fieldsWritable fs
  | [] => rfl
  | (key, v) :: fs => by
      rw [orderedFields, fieldsWritable, fieldsWritable, isWritable_ordered v,
        fieldsWritable_ordered fs]
end

/-- What is written is there exactly if it can be. -/
theorem written_eq_ok {α : Type} {v : Value} {a b : α} :
    v.written a = .ok b ↔ v.isWritable = true ∧ b = a := by
  unfold written
  constructor
  · intro h
    split at h
    case isTrue hv =>
      injection h with hb
      exact ⟨hv, hb.symm⟩
    case isFalse => cases h
  · rintro ⟨hv, rfl⟩
    exact if_pos hv

section Walks

variable {α β : Type}

/-- A list can be written if its items can. -/
theorem isWritable_list (vs : List Value) : (Value.list vs).isWritable = vs.all isWritable :=
  itemsWritable_eq vs

/-- Writing asks of a value only whether it can be written. -/
theorem written_congr {v w : Value} (h : v.isWritable = w.isWritable) (a : α) :
    v.written a = w.written a := by
  unfold written
  rw [h]

theorem isWritable_list_iff {vs : List Value} :
    (Value.list vs).isWritable = true ↔ ∀ v ∈ vs, v.isWritable = true := by
  rw [isWritable_list, List.all_eq_true]

/-- Writing a value and then others is writing a list. -/
theorem written_cons (v : Value) (vs : List Value) (a : α) (f : α → β) :
    (v.written a >>= fun a => (Value.list vs).written (f a))
      = (Value.list (v :: vs)).written (f a) := by
  unfold written
  rw [isWritable_list, isWritable_list, List.all_cons]
  cases v.isWritable with
  | false => rfl
  | true => rfl

/-- What is done with something that was written. -/
theorem map_written (v : Value) (a : α) (f : α → β) :
    (do return f (← v.written a)) = v.written (f a) := by
  unfold written
  split
  · rfl
  · rfl

/-- A walk that writes a value at every step writes them as a list. -/
theorem mapM_written_map {ι : Type} (g : ι → Value) (f : ι → α) (xs : List ι) :
    xs.mapM (fun x => (g x).written (f x)) = (Value.list (xs.map g)).written (xs.map f) := by
  induction xs with
  | nil => rfl
  | cons x xs ih =>
      rw [List.mapM_cons, ih, List.map_cons, List.map_cons]
      simp only [map_written]
      exact written_cons (g x) (xs.map g) (f x) fun a => a :: xs.map f

/-- The same where the walk goes over the values themselves. -/
theorem mapM_written (f : Value → α) (vs : List Value) :
    vs.mapM (fun v => v.written (f v)) = (Value.list vs).written (vs.map f) := by
  rw [mapM_written_map (fun v => v), List.map_id']

/-- The same where each of the values gives several results. -/
theorem flatMapM_written (f : Value → List α) (vs : List Value) :
    vs.flatMapM (fun v => v.written (f v)) = (Value.list vs).written (vs.flatMap f) := by
  rw [flatMapM_eq, mapM_written, map_written, List.flatMap_def]

end Walks

-- =============================================================== texts

section Texts

variable {α β ι : Type} {vs ws : List Value} {r : Except Fault α}

/-- The result is there if some values can be written, and asks nothing else. -/
def Shows (vs : List Value) (r : Except Fault α) : Prop := ∃ a, r = (Value.list vs).written a

theorem Shows.ok (a : α) : Shows [] (.ok a) := ⟨a, rfl⟩

theorem Shows.written (v : Value) (a : α) : Shows [v] (v.written a) :=
  ⟨a, written_congr (by simp [isWritable_list]) a⟩

/-- Two steps show what each of them shows. -/
theorem Shows.bind {f : α → Except Fault β} (h : Shows vs r) (hf : ∀ a, Shows ws (f a)) :
    Shows (vs ++ ws) (r >>= f) := by
  obtain ⟨a, rfl⟩ := h
  obtain ⟨b, hb⟩ := hf a
  refine ⟨b, ?_⟩
  cases hvs : (Value.list vs).isWritable with
  | true =>
      have hboth : (Value.list ws).isWritable = (Value.list (vs ++ ws)).isWritable := by
        rw [isWritable_list] at hvs
        rw [isWritable_list, isWritable_list, List.all_append, hvs, Bool.true_and]
      rw [written_of_writable hvs, ← written_congr hboth, ← hb]
      rfl
  | false =>
      have hboth : (Value.list (vs ++ ws)).isWritable = false := by
        rw [isWritable_list] at hvs ⊢
        rw [List.all_append, hvs, Bool.false_and]
      rw [written_of_not_writable hvs, written_of_not_writable hboth]
      rfl

theorem Shows.map (h : Shows vs r) (f : α → β) : Shows vs (do return f (← r)) := by
  have hthen := h.bind fun a => Shows.ok (f a)
  rw [List.append_nil] at hthen
  exact hthen

/-- A walk shows what its steps show. -/
theorem Shows.mapM {g : ι → List Value} {f : ι → Except Fault α} (h : ∀ x, Shows (g x) (f x))
    (xs : List ι) : Shows (xs.flatMap g) (xs.mapM f) := by
  induction xs with
  | nil => exact Shows.ok []
  | cons x xs ih =>
      rw [List.mapM_cons, List.flatMap_cons]
      exact (h x).bind fun a => ih.map fun rest => a :: rest

end Texts

end Value

-- ============================================================== answers

/-- The result is there and as described, unless it is missing because
something cannot be written. -/
def Answers {α : Type} (writable : Prop) (r : Except Fault α) (P : α → Prop) : Prop :=
  (∃ a, r = .ok a ∧ P a) ∨ (r = .error Written.tooLongToWrite ∧ ¬ writable)

namespace Answers

variable {α β : Type} {writable : Prop} {r : Except Fault α} {P : α → Prop}

theorem ok {a : α} (h : P a) : Answers writable (.ok a) P := .inl ⟨a, rfl, h⟩

theorem of_eq_ok {a : α} (hr : r = .ok a) (h : P a) : Answers writable r P := .inl ⟨a, hr, h⟩

theorem imp {Q : α → Prop} (h : Answers writable r P) (himp : ∀ a, P a → Q a) :
    Answers writable r Q := by
  obtain ⟨a, hr, ha⟩ | hfails := h
  · exact .inl ⟨a, hr, himp a ha⟩
  · exact .inr hfails

/-- Writing something answers, if it can be written along with the rest. -/
theorem written {v : Value} {a : α} (hv : writable → v.isWritable = true) (h : P a) :
    Answers writable (v.written a) P := by
  cases hwritable : v.isWritable with
  | true => exact .inl ⟨a, Value.written_of_writable hwritable a, h⟩
  | false =>
      refine .inr ⟨Value.written_of_not_writable hwritable a, fun hw => ?_⟩
      rw [hv hw] at hwritable
      cases hwritable

theorem bind {f : α → Except Fault β} {Q : β → Prop} (h : Answers writable r P)
    (hf : ∀ a, P a → Answers writable (f a) Q) : Answers writable (r >>= f) Q := by
  obtain ⟨a, rfl, ha⟩ | ⟨rfl, hnot⟩ := h
  · exact hf a ha
  · exact .inr ⟨rfl, hnot⟩

/-- After a step that succeeds. -/
theorem bind_ok {a : α} {f : α → Except Fault β} {Q : β → Prop} (hr : r = .ok a)
    (hf : Answers writable (f a) Q) : Answers writable (r >>= f) Q := by
  rw [hr]
  exact hf

/-- After something is written. -/
theorem bind_written {v : Value} {a : α} {f : α → Except Fault β} {Q : β → Prop}
    (hv : writable → v.isWritable = true) (hf : Answers writable (f a) Q) :
    Answers writable (v.written a >>= f) Q :=
  (written hv rfl : Answers writable (v.written a) (· = a)).bind fun _ h => h ▸ hf

/-- Where all can be written, what is asked for is there. -/
theorem exists_ok (h : Answers writable r P) (hwritable : writable) : ∃ a, r = .ok a ∧ P a :=
  h.resolve_right fun hfails => hfails.2 hwritable

end Answers

end Depot
