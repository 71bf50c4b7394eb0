/-
The keys of a table. Setting keys one after the other leaves each where it
was first set, so that the keys of the result are the distinct ones in the
order of first occurrence. `List.eraseDups` is that order; it is taken
from the right here (`eraseDups_concat`), because tables grow at the end.
With its keys in order, what each of them leads to is all that there is to a
table (`ext_lookup`).
-/
import Depot.Table
import Mathlib.Data.List.Induction
import Mathlib.Data.List.Nodup

namespace Depot

-- =================================================== first occurrences

section FirstOccurrences

variable {α : Type} [BEq α] [LawfulBEq α]

/-- One more item counts unless it occurred before. -/
theorem eraseDups_concat (xs : List α) (x : α) :
    (xs ++ [x]).eraseDups = if x ∈ xs then xs.eraseDups else xs.eraseDups ++ [x] := by
  rw [List.eraseDups_append]
  by_cases hx : x ∈ xs
  · simp [List.removeAll, hx]
  · simp [List.removeAll, hx, List.eraseDups_cons]

theorem nodup_eraseDups (xs : List α) : xs.eraseDups.Nodup := by
  induction xs using List.reverseRecOn with
  | nil => exact List.nodup_nil
  | append_singleton xs x ih =>
      rw [eraseDups_concat]
      by_cases hx : x ∈ xs
      · rw [if_pos hx]
        exact ih
      · rw [if_neg hx]
        refine List.nodup_append.2 ⟨ih, List.nodup_singleton x, ?_⟩
        intro y hy z hz
        rw [List.mem_singleton.1 hz]
        rintro rfl
        exact hx (List.mem_eraseDups.1 hy)

/-- Items that are distinct all count. -/
theorem eraseDups_of_nodup {xs : List α} (h : xs.Nodup) : xs.eraseDups = xs := by
  induction xs using List.reverseRecOn with
  | nil => rfl
  | append_singleton xs x ih =>
      obtain ⟨hxs, -, hnew⟩ := List.nodup_append.1 h
      rw [eraseDups_concat, if_neg, ih hxs]
      intro hx
      exact hnew x hx x (List.mem_singleton_self x) rfl

/-- An item that occurred before does not count again. -/
theorem eraseDups_append_cons_of_mem {xs : List α} {x : α} (h : x ∈ xs) (ys : List α) :
    (xs ++ x :: ys).eraseDups = (xs ++ ys).eraseDups := by
  rw [List.eraseDups_append, List.eraseDups_append]
  simp [List.removeAll, h]

/-- It does not matter to further items whether items were told apart
before. -/
theorem eraseDups_eraseDups_append (xs ys : List α) :
    (xs.eraseDups ++ ys).eraseDups = (xs ++ ys).eraseDups := by
  have hsame : ys.removeAll xs.eraseDups = ys.removeAll xs := by
    unfold List.removeAll
    refine List.filter_congr fun y _ => ?_
    simp
  rw [List.eraseDups_append, List.eraseDups_append, eraseDups_of_nodup (nodup_eraseDups xs), hsame]

/-- Of several copies of distinct items only the first counts. -/
theorem eraseDups_copies {xs : List α} (h : xs.Nodup) {n : Nat} (hsome : 0 < n) :
    (List.replicate n xs).flatten.eraseDups = xs := by
  obtain ⟨n, rfl⟩ := Nat.exists_eq_succ_of_ne_zero (Nat.ne_of_gt hsome)
  have hnone : (List.replicate n xs).flatten.removeAll xs = [] := by
    refine List.filter_eq_nil_iff.2 fun x hx => ?_
    obtain ⟨copy, hcopy, hin⟩ := List.mem_flatten.1 hx
    rw [List.eq_of_mem_replicate hcopy] at hin
    simpa using hin
  rw [List.replicate_succ, List.flatten_cons, List.eraseDups_append, hnone, eraseDups_of_nodup h,
    List.eraseDups_nil, List.append_nil]

end FirstOccurrences

-- ============================================================== tables

namespace Table

variable {α : Type}

theorem has_iff {key : String} {t : Table α} : t.has key = true ↔ key ∈ t.keys := by
  unfold has keys
  rw [List.lookup_isSome_iff, List.mem_map]
  constructor
  · rintro ⟨e, he, hkey⟩
    exact ⟨e, he, (beq_iff_eq.1 hkey).symm⟩
  · rintro ⟨e, he, rfl⟩
    exact ⟨e, he, beq_self_eq_true _⟩

/-- Setting a key adds it at the end unless it is there. -/
theorem keys_put (key : String) (new : α) (t : Table α) :
    (put key new t).keys = if key ∈ t.keys then t.keys else t.keys ++ [key] := by
  induction t with
  | nil => rfl
  | cons e t ih =>
      obtain ⟨k, old⟩ := e
      unfold put
      by_cases hk : k = key
      · rw [if_pos hk, if_pos (by simp [keys, hk])]
        rfl
      · rw [if_neg hk]
        show k :: (put key new t).keys = _
        rw [ih]
        have hcons : key ∈ keys ((k, old) :: t) ↔ key ∈ keys t := by
          simp only [keys, List.map_cons, List.mem_cons]
          exact ⟨fun h => h.resolve_left (Ne.symm hk), Or.inr⟩
        by_cases hin : key ∈ keys t
        · rw [if_pos hin, if_pos (hcons.2 hin)]
          rfl
        · rw [if_neg hin, if_neg (fun h => hin (hcons.1 h))]
          rfl

/-- An entry that is put adds its own key at most. -/
theorem mem_keys_put {key key' : String} {new : α} {t : Table α} :
    key ∈ (put key' new t).keys ↔ key = key' ∨ key ∈ t.keys := by
  rw [keys_put]
  by_cases hin : key' ∈ t.keys
  · rw [if_pos hin]
    constructor
    · exact Or.inr
    · rintro (rfl | h)
      · exact hin
      · exact h
  · rw [if_neg hin, List.mem_append, List.mem_singleton]
    exact or_comm

/-- An entry that is put keeps the keys distinct. -/
theorem nodup_keys_put {t : Table α} (h : (keys t).Nodup) (key : String) (new : α) :
    (put key new t).keys.Nodup := by
  rw [keys_put]
  by_cases hin : key ∈ keys t
  · rw [if_pos hin]
    exact h
  · rw [if_neg hin, ← List.concat_eq_append]
    exact h.concat hin

/-- A new key goes to the end. -/
theorem put_of_notMem {key : String} {t : Table α} (h : key ∉ t.keys) (new : α) :
    put key new t = t ++ [(key, new)] := by
  induction t with
  | nil => rfl
  | cons e t ih =>
      obtain ⟨k, old⟩ := e
      simp only [keys, List.map_cons, List.mem_cons, not_or] at h
      unfold put
      rw [if_neg (Ne.symm h.1), ih h.2]
      rfl

/-- Entries that are changed by value are set in the same places. -/
theorem put_map {β : Type} (f : α → β) (key : String) (new : α) (t : Table α) :
    put key (f new) (t.map fun e => (e.1, f e.2)) = (put key new t).map fun e => (e.1, f e.2) := by
  induction t with
  | nil => rfl
  | cons e t ih =>
      obtain ⟨k, old⟩ := e
      simp only [List.map_cons, put]
      by_cases hk : k = key
      · rw [if_pos hk, if_pos hk, List.map_cons]
      · rw [if_neg hk, if_neg hk, ih, List.map_cons]

theorem lookup_eq_none {key : String} {t : Table α} : t.lookup key = none ↔ key ∉ t.keys := by
  rw [← has_iff, has, Option.isSome_iff_ne_none, ne_eq, not_not]

/-- A key leads to what was set for it; what other keys lead to is as it
was. -/
theorem lookup_put (key : String) (new : α) (t : Table α) (key' : String) :
    (put key new t).lookup key' = if key' = key then some new else t.lookup key' := by
  induction t with
  | nil =>
      show List.lookup key' [(key, new)] = _
      rw [List.lookup_cons]
      by_cases hkey : key' = key
      · rw [if_pos hkey, beq_iff_eq.2 hkey]
      · rw [if_neg hkey, beq_false_of_ne hkey]
  | cons e t ih =>
      obtain ⟨k, old⟩ := e
      unfold put
      by_cases hk : k = key
      · rw [if_pos hk, hk, List.lookup_cons, List.lookup_cons]
        by_cases hkey : key' = key
        · rw [if_pos hkey, beq_iff_eq.2 hkey]
        · rw [if_neg hkey, beq_false_of_ne hkey]
      · rw [if_neg hk, List.lookup_cons, List.lookup_cons, ih]
        by_cases hthere : key' = k
        · have hkey : key' ≠ key := fun hkey => hk (hthere.symm.trans hkey)
          rw [beq_iff_eq.2 hthere]
          exact (if_neg hkey).symm
        · rw [beq_false_of_ne hthere]

theorem mem_of_lookup {key : String} {a : α} {t : Table α} (h : t.lookup key = some a) :
    (key, a) ∈ t := by
  obtain ⟨before, after, rfl, -⟩ := List.lookup_eq_some_iff.1 h
  exact List.mem_append_right before List.mem_cons_self

/-- With different keys, an entry is what its key leads to. -/
theorem lookup_of_mem {key : String} {a : α} {t : Table α} (hnodup : (keys t).Nodup)
    (h : (key, a) ∈ t) : t.lookup key = some a := by
  obtain ⟨before, after, rfl⟩ := List.append_of_mem h
  refine List.lookup_eq_some_iff.2 ⟨before, after, rfl, ?_⟩
  intro e he
  unfold keys at hnodup
  rw [List.map_append, List.map_cons] at hnodup
  have hnot := List.disjoint_of_nodup_append hnodup (List.mem_map_of_mem he)
  rw [bne_iff_ne]
  rintro rfl
  exact hnot List.mem_cons_self

theorem exists_lookup {e : String × α} {t : Table α} (h : e ∈ t) : ∃ a, t.lookup e.1 = some a :=
  Option.isSome_iff_exists.1 (List.lookup_isSome_iff.2 ⟨e, h, beq_self_eq_true e.1⟩)

/-- Tables of the same different keys are one if every key leads to the same. -/
theorem ext_lookup {t t' : Table α} (hkeys : keys t = keys t') (hnodup : (keys t).Nodup)
    (h : ∀ key ∈ keys t, t.lookup key = t'.lookup key) : t = t' := by
  induction t generalizing t' with
  | nil => exact (List.map_eq_nil_iff.1 hkeys.symm).symm
  | cons e t ih =>
      obtain ⟨key, a⟩ := e
      obtain ⟨e', t', rfl⟩ := List.exists_cons_of_ne_nil (l := t') (by rintro rfl; cases hkeys)
      obtain ⟨key', b⟩ := e'
      injection hkeys with hkey hrest
      dsimp only at hkey
      subst hkey
      obtain ⟨hnew, hnodup⟩ := List.nodup_cons.1 hnodup
      have hfirst := h key List.mem_cons_self
      rw [List.lookup_cons_self, List.lookup_cons_self] at hfirst
      injection hfirst with hfirst
      rw [hfirst, ih hrest hnodup fun other hother => ?_]
      have hne : other ≠ key := by
        rintro rfl
        exact hnew hother
      have hboth := h other (List.mem_cons_of_mem _ hother)
      rwa [List.lookup_cons, List.lookup_cons, beq_false_of_ne hne] at hboth

/-- A table of entries is made by putting them one after the other. -/
theorem ofEntries_concat (entries : List (String × α)) (e : String × α) :
    ofEntries (entries ++ [e]) = put e.1 e.2 (ofEntries entries) := by
  unfold ofEntries
  rw [List.foldl_append]
  rfl

/-- What a key leads to was set for it. -/
theorem mem_of_lookup_ofEntries {entries : List (String × α)} {key : String} {a : α}
    (h : (ofEntries entries).lookup key = some a) : (key, a) ∈ entries := by
  induction entries using List.reverseRecOn with
  | nil => cases h
  | append_singleton entries e ih =>
      rw [ofEntries_concat, lookup_put] at h
      by_cases hkey : key = e.1
      · rw [if_pos hkey] at h
        injection h with h
        rw [hkey, ← h]
        exact List.mem_append_right entries (List.mem_singleton_self e)
      · rw [if_neg hkey] at h
        exact List.mem_append_left [e] (ih h)

/-- A key that was set leads to something. -/
theorem exists_lookup_ofEntries {entries : List (String × α)} {key : String} {a : α}
    (h : (key, a) ∈ entries) : ∃ b, (ofEntries entries).lookup key = some b := by
  induction entries using List.reverseRecOn with
  | nil => cases h
  | append_singleton entries e ih =>
      rw [ofEntries_concat, lookup_put]
      by_cases hkey : key = e.1
      · exact ⟨e.2, if_pos hkey⟩
      · rw [if_neg hkey]
        rcases List.mem_append.1 h with hold | hnew
        · exact ih hold
        · rw [← List.mem_singleton.1 hnew] at hkey
          exact absurd rfl hkey

/-- A key leads to what was set last for it. -/
theorem lookup_ofEntries_of_last (before : List (String × α)) (e : String × α)
    {after : List (String × α)} (hlast : ∀ later ∈ after, later.1 ≠ e.1) :
    (ofEntries (before ++ e :: after)).lookup e.1 = some e.2 := by
  induction after using List.reverseRecOn with
  | nil => rw [ofEntries_concat, lookup_put, if_pos rfl]
  | append_singleton after later ih =>
      have hne : e.1 ≠ later.1 := (hlast later (by simp)).symm
      rw [← List.cons_append, ← List.append_assoc, ofEntries_concat, lookup_put, if_neg hne]
      exact ih fun other hother => hlast other (List.mem_append_left [later] hother)

/-- The order of entries with different keys does not matter to a
look-up. -/
theorem lookup_perm {t t' : Table α} (hnodup : (keys t).Nodup) (h : t.Perm t') (key : String) :
    t.lookup key = t'.lookup key := by
  have hnodup' : (keys t').Nodup := (h.map Prod.fst).nodup_iff.1 hnodup
  refine Option.ext fun a => ?_
  constructor
  · intro hlookup
    exact lookup_of_mem hnodup' (h.subset (mem_of_lookup hlookup))
  · intro hlookup
    exact lookup_of_mem hnodup (h.symm.subset (mem_of_lookup hlookup))

/-- Of items with different keys, the rest stay new to a table when the first
is put at its end. -/
theorem fresh_concat {β : Type} {keyOf : β → String} {x : β} {xs : List β} {t : Table α}
    (hnew : keyOf x ∉ xs.map keyOf) (fresh : ∀ y ∈ x :: xs, keyOf y ∉ t.keys) (new : α) :
    ∀ y ∈ xs, keyOf y ∉ Table.keys (t ++ [(keyOf x, new)]) := by
  intro y hy
  unfold keys
  rw [List.map_append, List.mem_append, List.map_singleton, List.mem_singleton]
  rintro (hin | hin)
  · exact fresh y (by simp [hy]) hin
  · exact hnew (List.mem_map.2 ⟨y, hy, hin⟩)

end Table

end Depot
