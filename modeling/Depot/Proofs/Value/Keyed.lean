/-
Tables keyed by values, through their one view: what stands under a key
(`Keyed.get?`). Each operation gets the equation that says what it does
to the view, for a key that can name an entry; the table's own keys are
arbitrary, because a key that cannot name an entry is never met.

A table that was put together key by key has keys that can name an entry, no
two of them the same (`IsMapping`); then each entry is what stands under its
key (`IsMapping.get?_of_mem`).
-/
import Depot.Proofs.Value.Name
import Depot.Value.Keyed

namespace Depot.Keyed

variable {α β : Type} {t : Keyed α} {key key' : Value}

theorem get?_nil (key : Value) : get? ([] : Keyed α) key = none := rfl

theorem get?_cons (e : Value × α) (t : Keyed α) (key : Value) :
    get? (e :: t) key = if e.1.same key then some e.2 else t.get? key := by
  unfold get?
  rw [List.find?_cons]
  cases e.1.same key with
  | true => rfl
  | false => rfl

/-- Keys that are the same lead to the same. -/
theorem get?_congr (hkey : key.canName = true) (h : key.same key' = true) (t : Keyed α) :
    t.get? key = t.get? key' := by
  induction t with
  | nil => rfl
  | cons e t ih => rw [get?_cons, get?_cons, ih, Value.same_congr_right hkey h]

/-- An entry that is put is found under its key; elsewhere nothing changes. -/
theorem get?_put (hkey : key.canName = true) (t : Keyed α) (new : α) (key' : Value) :
    (t.put key new).get? key' = if key.same key' then some new else t.get? key' := by
  induction t with
  | nil => rw [put, get?_cons]
  | cons e t ih =>
      obtain ⟨k, old⟩ := e
      cases hk : k.same key with
      | true =>
          have hk' : k.same key' = key.same key' :=
            Value.same_congr_left (Value.canName_of_same_right hkey hk) hk key'
          simp only [put, hk, if_true, get?_cons, hk']
          cases key.same key' with
          | true => rfl
          | false => rfl
      | false =>
          simp only [put, hk, get?_cons, ih, Bool.false_eq_true, if_false]
          cases hk' : k.same key' with
          | true =>
              have hne : key.same key' = false := by
                rw [Bool.eq_false_iff]
                intro h
                rw [Value.same_congr_right hkey h, hk'] at hk
                cases hk
              simp [hne]
          | false => simp

/-- An entry that is taken out is gone; elsewhere nothing changes. -/
theorem get?_erase (hkey : key.canName = true) (t : Keyed α) (key' : Value) :
    (t.erase key).get? key' = if key.same key' then none else t.get? key' := by
  induction t with
  | nil => simp [erase, get?_nil]
  | cons e t ih =>
      unfold erase at ih ⊢
      rw [List.filter_cons]
      cases hk : e.1.same key with
      | true =>
          have hk' : e.1.same key' = key.same key' :=
            Value.same_congr_left (Value.canName_of_same_right hkey hk) hk key'
          simp only [Bool.not_true, Bool.false_eq_true, if_false, ih, get?_cons, hk']
          cases key.same key' with
          | true => rfl
          | false => rfl
      | false =>
          simp only [Bool.not_false, if_true, get?_cons, ih]
          cases hk' : e.1.same key' with
          | true =>
              have hne : key.same key' = false := by
                rw [Bool.eq_false_iff]
                intro h
                rw [Value.same_congr_right hkey h, hk'] at hk
                cases hk
              simp [hne]
          | false => simp

/-- A table looked at through a function. -/
theorem get?_map (f : α → β) (t : Keyed α) (key : Value) :
    get? (t.map fun e => (e.1, f e.2)) key = (t.get? key).map f := by
  induction t with
  | nil => rfl
  | cons e t ih =>
      rw [List.map_cons, get?_cons, get?_cons, ih]
      cases e.1.same key with
      | true => rfl
      | false => rfl

/-- What is found under a key stands in the table under a key that is the
same. -/
theorem mem_of_get? {a : α} (h : t.get? key = some a) : ∃ k, (k, a) ∈ t ∧ k.same key = true := by
  unfold get? at h
  obtain ⟨⟨k, b⟩, hfind, rfl⟩ := Option.map_eq_some_iff.1 h
  exact ⟨k, List.mem_of_find?_eq_some hfind, by simpa using List.find?_some hfind⟩

theorem has_eq_false_iff : t.has key = false ↔ ∀ e ∈ t, e.1.same key = false := by
  unfold has get?
  rw [Option.isSome_eq_false_iff, Option.isNone_iff_eq_none, Option.map_eq_none_iff,
    List.find?_eq_none]
  simp

/-- A look-up fails for a key that cannot name an entry, and only then. -/
theorem find?_eq (t : Keyed α) (key : Value) :
    t.find? key = if key.canName then .ok (t.get? key) else .error key.cannotName := by
  unfold find? Value.asName
  cases key.canName with
  | true => rfl
  | false => rfl

/-- A key can be looked for if it can name something. -/
theorem contains_eq (t : Keyed α) (key : Value) :
    t.contains key = if key.canName then .ok (t.has key) else .error key.cannotName := by
  unfold contains Value.asName
  cases key.canName with
  | true => rfl
  | false => rfl

/-- A key that can name something is looked up as in any mapping. -/
theorem find?_of_canName (h : key.canName = true) (t : Keyed α) :
    t.find? key = .ok (t.get? key) := by
  rw [find?_eq, if_pos h]

/-- A key that a table is told not to have could name an entry and does
not. -/
theorem contains_eq_false (h : t.contains key = .ok false) :
    key.canName = true ∧ ∀ e ∈ t, e.1.same key = false := by
  rw [contains_eq] at h
  split at h
  · next canName =>
      injection h with hhas
      exact ⟨canName, has_eq_false_iff.1 hhas⟩
  · cases h

/-- What was looked up and not found stands under no key. -/
theorem find?_eq_none (h : t.find? key = .ok none) :
    key.canName = true ∧ ∀ e ∈ t, e.1.same key = false := by
  rw [find?_eq] at h
  split at h
  · next canName =>
      injection h with hget
      refine ⟨canName, has_eq_false_iff.1 ?_⟩
      unfold has
      rw [hget]
      rfl
  · cases h

/-- A new key goes to the end. -/
theorem put_of_has_eq_false (h : t.has key = false) (new : α) :
    t.put key new = t ++ [(key, new)] := by
  induction t with
  | nil => rfl
  | cons e t ih =>
      have hall := has_eq_false_iff.1 h
      have he : e.1.same key = false := hall e (by simp)
      have ht : has t key = false :=
        has_eq_false_iff.2 fun e' he' => hall e' (by simp [he'])
      simp only [put, he, ih ht, List.cons_append, Bool.false_eq_true, if_false]

-- ============================================================ mappings

/-- Entries as a mapping has them: under keys that can name one, no two of
which are the same. -/
structure IsMapping (t : Keyed α) : Prop where
  nameable : ∀ e ∈ t, e.1.canName = true
  distinct : t.Pairwise fun e e' => e.1.same e'.1 = false

namespace IsMapping

theorem nil : IsMapping ([] : Keyed α) := ⟨by simp, .nil⟩

theorem of_cons {e : Value × α} (h : IsMapping (e :: t)) :
    IsMapping t ∧ ∀ e' ∈ t, e.1.same e'.1 = false := by
  obtain ⟨hfirst, hrest⟩ := List.pairwise_cons.1 h.distinct
  exact ⟨⟨fun e' he' => h.nameable e' (by simp [he']), hrest⟩, hfirst⟩

/-- A new key at the end. -/
theorem concat (h : IsMapping t) (nameable : key.canName = true)
    (new : ∀ e ∈ t, e.1.same key = false) (a : α) : IsMapping (t ++ [(key, a)]) := by
  constructor
  · intro e he
    rcases List.mem_append.1 he with he | he
    · exact h.nameable e he
    · rw [List.mem_singleton.1 he]
      exact nameable
  · refine List.pairwise_append.2 ⟨h.distinct, List.pairwise_singleton .., ?_⟩
    intro e he e' he'
    rw [List.mem_singleton.1 he']
    exact new e he

/-- Whether entries are a mapping depends on their keys alone. -/
theorem of_keys_eq {t' : Keyed β} (h : IsMapping t) (hkeys : t'.keys = t.keys) :
    IsMapping t' := by
  have hnameable : ∀ k ∈ t.keys, k.canName = true := by
    intro k hk
    obtain ⟨e, he, rfl⟩ := List.mem_map.1 hk
    exact h.nameable e he
  have hdistinct : t.keys.Pairwise fun k k' => k.same k' = false := List.pairwise_map.2 h.distinct
  rw [← hkeys] at hnameable hdistinct
  exact ⟨fun e he => hnameable e.1 (List.mem_map_of_mem he), List.pairwise_map.1 hdistinct⟩

/-- An entry is the only one under a key that is the same. -/
theorem eq_of_same (h : IsMapping t) {e e' : Value × α} (he : e ∈ t) (he' : e' ∈ t)
    (hsame : e.1.same e'.1 = true) : e = e' := by
  induction t with
  | nil => cases he
  | cons first t ih =>
      obtain ⟨hrest, hfirst⟩ := h.of_cons
      rcases List.mem_cons.1 he with rfl | hin
      · rcases List.mem_cons.1 he' with rfl | hin'
        · rfl
        · cases hsame.symm.trans (hfirst e' hin')
      · rcases List.mem_cons.1 he' with rfl | hin'
        · rw [Value.same_comm (h.nameable e he) (h.nameable e' he')] at hsame
          cases hsame.symm.trans (hfirst e hin)
        · exact ih hrest hin hin'

/-- What stands under the key of an entry is that entry. -/
theorem get?_of_mem (h : IsMapping t) {e : Value × α} (he : e ∈ t) : t.get? e.1 = some e.2 := by
  induction t with
  | nil => cases he
  | cons first t ih =>
      obtain ⟨hrest, hfirst⟩ := h.of_cons
      rw [get?_cons]
      rcases List.mem_cons.1 he with rfl | hin
      · rw [Value.same_refl (h.nameable e he), if_pos rfl]
      · rw [hfirst e hin, if_neg (by simp)]
        exact ih hrest hin

end IsMapping

end Depot.Keyed
