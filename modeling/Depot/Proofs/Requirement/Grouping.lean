/-
What grouping gives. By resource, the groups are the distinct keys in the
order of first occurrence, each with all items of that key in the order of
the list (`groupByResourceKey_eq`). By type, what stands under a type is
all items of it, and nothing stands there if there are none
(`get?_groupByType`); types are values, so this is said through look-up
and not through the spelling of the type.

Both are inductions from the right: one more item goes to the end of its
group, or opens a group at the end.
-/
import Depot.Proofs.Table
import Depot.Proofs.Value.Keyed
import Depot.Proofs.Work
import Depot.Requirement.Grouping

namespace Depot.Requirement

variable {α : Type} (of : α → Requirement)

-- ========================================================= by resource

/-- The items for one resource. -/
def sharing (key : String) (items : List α) : List α :=
  items.filter fun item => (of item).resourceKey = key

theorem resourceKey_of_mem_sharing {key : String} {items : List α} {item : α}
    (h : item ∈ sharing of key items) : (of item).resourceKey = key := by
  simpa using (List.mem_filter.1 h).2

/-- Adding to groups of different keys: the group of the key grows, or a
new one stands at the end. -/
theorem addTo_map {keys : List String} (distinct : keys.Nodup) (members : String → List α)
    (key : String) (item : α) :
    addTo (· == ·) key item (keys.map fun k => (k, members k))
      = if key ∈ keys then keys.map fun k => (k, members k ++ if k = key then [item] else [])
        else (keys.map fun k => (k, members k)) ++ [(key, [item])] := by
  induction keys with
  | nil => rfl
  | cons k keys ih =>
      obtain ⟨hk, hkeys⟩ := List.nodup_cons.1 distinct
      simp only [List.map_cons, addTo, ih hkeys]
      by_cases heq : k = key
      · -- the group is found here, and no later one is of this key
        subst heq
        have hrest : keys.map (fun k' => (k', members k' ++ if k' = k then [item] else []))
            = keys.map fun k' => (k', members k') := by
          refine List.map_congr_left fun k' hk' => ?_
          have hne : k' ≠ k := by
            rintro rfl
            exact hk hk'
          rw [if_neg hne, List.append_nil]
        simp [hrest]
      · have hne : (k == key) = false := beq_eq_false_iff_ne.2 heq
        by_cases hin : key ∈ keys
        · simp [hne, heq, hin]
        · simp [hne, hin, Ne.symm heq]

/-- The groups by resource: each distinct key, in the order of first
occurrence, with its items. -/
theorem groupByResourceKey_eq (items : List α) :
    groupByResourceKey of items
      = (items.map fun item => (of item).resourceKey).eraseDups.map fun key =>
          (key, sharing of key items) := by
  induction items using List.reverseRecOn with
  | nil => rfl
  | append_singleton items item ih =>
      have hstep : groupByResourceKey of (items ++ [item])
          = addTo (· == ·) (of item).resourceKey item (groupByResourceKey of items) := by
        unfold groupByResourceKey
        rw [List.foldl_append]
        rfl
      have hshare : ∀ key, sharing of key (items ++ [item])
          = sharing of key items ++ if key = (of item).resourceKey then [item] else [] := by
        intro key
        unfold sharing
        rw [List.filter_append]
        by_cases h : key = (of item).resourceKey
        · simp [h]
        · simp [h, Ne.symm h]
      rw [hstep, ih, addTo_map (nodup_eraseDups _), List.map_append, List.map_singleton,
        eraseDups_concat]
      simp only [List.mem_eraseDups, hshare]
      by_cases hin : (of item).resourceKey ∈ items.map fun item => (of item).resourceKey
      · rw [if_pos hin, if_pos hin]
      · rw [if_neg hin, if_neg hin, List.map_append, List.map_singleton]
        -- a key that did not occur has no items yet, and no other group grows
        have hnone : sharing of (of item).resourceKey items = [] := by
          refine List.filter_eq_nil_iff.2 fun other hother => ?_
          have hne : (of other).resourceKey ≠ (of item).resourceKey := fun h =>
            hin (List.mem_map.2 ⟨other, hother, h⟩)
          simp [hne]
        rw [hnone, if_pos rfl, List.nil_append]
        congr 1
        refine List.map_congr_left fun key hkey => ?_
        have hne : key ≠ (of item).resourceKey := by
          rintro rfl
          exact hin (List.mem_eraseDups.1 hkey)
        rw [if_neg hne, List.append_nil]

/-- The groups stand under the keys that occur, once each, in order. -/
theorem keys_groupByResourceKey (items : List α) :
    (groupByResourceKey of items).map Prod.fst
      = (items.map fun item => (of item).resourceKey).eraseDups := by
  rw [groupByResourceKey_eq, List.map_map]
  exact List.map_id _

/-- Every group has a member, and its members name its key. -/
theorem of_mem_groupByResourceKey {items : List α} {key : String} {group : List α}
    (h : (key, group) ∈ groupByResourceKey of items) :
    group = sharing of key items ∧ group ≠ [] := by
  rw [groupByResourceKey_eq] at h
  obtain ⟨key', hkey, heq⟩ := List.mem_map.1 h
  cases heq
  refine ⟨rfl, ?_⟩
  obtain ⟨item, hitem, hname⟩ := List.mem_map.1 (List.mem_eraseDups.1 hkey)
  exact List.ne_nil_of_mem (List.mem_filter.2 ⟨hitem, by simpa using hname⟩)

-- ============================================================= by type

/-- Adding to a group sets its key to the group with one more item. -/
theorem addTo_same (type : Value) (item : α) (groups : Keyed (List α)) :
    addTo Value.same type item groups
      = groups.put type ((groups.get? type).getD [] ++ [item]) := by
  induction groups with
  | nil => rfl
  | cons g groups ih =>
      obtain ⟨k, items⟩ := g
      cases hk : k.same type with
      | true => simp [addTo, Keyed.put, Keyed.get?_cons, hk]
      | false => simp [addTo, Keyed.put, Keyed.get?_cons, hk, ih]

/-- One more item can be grouped if the others can and its type can be a
key. -/
theorem groupByType_concat_ok {items : List α} {item : α} {groups : Keyed (List α)} :
    groupByType of (items ++ [item]) = .ok groups ↔
      ∃ earlier, groupByType of items = .ok earlier ∧ (of item).type.canName = true
        ∧ groups = addTo Value.same (of item).type item earlier := by
  have hstep : groupByType of (items ++ [item]) = (groupByType of items >>= fun earlier =>
      if (of item).type.canName = true then .ok (addTo Value.same (of item).type item earlier)
      else .error (of item).type.cannotName) := by
    unfold groupByType
    rw [List.foldlM_append]
    congr 1
    funext earlier
    exact bind_pure _
  rw [hstep, bind_eq_ok]
  refine exists_congr fun earlier => and_congr_right fun _ => ?_
  by_cases hname : (of item).type.canName = true
  · simp [hname, eq_comm]
  · simp [hname]

/-- What stands under a type in the groups by type: all items of the
type. -/
theorem get?_groupByType {items : List α} {groups : Keyed (List α)}
    (h : groupByType of items = .ok groups) (type : Value) :
    groups.get? type
      = if ofType of type items = [] then none else some (ofType of type items) := by
  induction items using List.reverseRecOn generalizing groups with
  | nil => cases h; rfl
  | append_singleton items item ih =>
      obtain ⟨earlier, hearlier, hname, rfl⟩ := (groupByType_concat_ok of).1 h
      have hgroups := ih hearlier
      rw [addTo_same, Keyed.get?_put hname]
      have hof : ofType of type (items ++ [item])
          = ofType of type items ++ if (of item).type.same type then [item] else [] := by
        unfold ofType
        rw [List.filter_append]
        cases hsame : (of item).type.same type with
        | true => simp [hsame]
        | false => simp [hsame]
      cases hsame : (of item).type.same type with
      | true =>
          rw [hof, hsame, Keyed.get?_congr hname hsame, hgroups]
          by_cases hnil : ofType of type items = []
          · simp [hnil]
          · simp [hnil]
      | false => simp [hof, hsame, hgroups]

/-- A group after an item was added: one from before, the item on its own, or
a group from before with the item at its end. -/
theorem of_mem_addTo {κ : Type} {same : κ → κ → Bool} {key k : κ} {item : α}
    {groups : List (κ × List α)} {group : List α} (h : (k, group) ∈ addTo same key item groups) :
    (k, group) ∈ groups ∨ (k = key ∧ group = [item])
      ∨ ∃ items, (k, items) ∈ groups ∧ same k key = true ∧ group = items ++ [item] := by
  induction groups with
  | nil =>
      cases List.mem_singleton.1 h
      exact .inr (.inl ⟨rfl, rfl⟩)
  | cons g groups ih =>
      obtain ⟨k', items⟩ := g
      unfold addTo at h
      split at h
      next hsame =>
        rcases List.mem_cons.1 h with heq | h
        · cases heq
          exact .inr (.inr ⟨items, by simp, hsame, rfl⟩)
        · exact .inl (List.mem_cons_of_mem _ h)
      next =>
        rcases List.mem_cons.1 h with heq | h
        · cases heq
          exact .inl (by simp)
        · rcases ih h with h | h | ⟨items', hin, hrest⟩
          · exact .inl (List.mem_cons_of_mem _ h)
          · exact .inr (.inl h)
          · exact .inr (.inr ⟨items', List.mem_cons_of_mem _ hin, hrest⟩)

/-- Items can be grouped by type if the types can be keys. -/
theorem groupByType_ok_iff {items : List α} :
    (∃ groups, groupByType of items = .ok groups) ↔
      ∀ item ∈ items, (of item).type.canName = true := by
  induction items using List.reverseRecOn with
  | nil => exact ⟨fun _ => by simp, fun _ => ⟨[], rfl⟩⟩
  | append_singleton items item ih =>
      rw [List.forall_mem_append, ← ih]
      simp only [groupByType_concat_ok, List.forall_mem_singleton]
      constructor
      · rintro ⟨_, earlier, hearlier, hname, -⟩
        exact ⟨⟨earlier, hearlier⟩, hname⟩
      · rintro ⟨⟨earlier, hearlier⟩, hname⟩
        exact ⟨_, earlier, hearlier, hname, rfl⟩

/-- A group by type has members, and all of them are items of its type. -/
theorem of_mem_groupByType {items : List α} {groups : Keyed (List α)}
    (h : groupByType of items = .ok groups) {type : Value} {group : List α}
    (hmem : (type, group) ∈ groups) :
    group ≠ [] ∧ group.Sublist (ofType of type items) := by
  induction items using List.reverseRecOn generalizing groups group with
  | nil =>
      cases h
      cases hmem
  | append_singleton items item ih =>
      obtain ⟨earlier, hearlier, hname, rfl⟩ := (groupByType_concat_ok of).1 h
      have hof : ofType of type (items ++ [item]) = ofType of type items ++ ofType of type [item] :=
        List.filter_append ..
      have hitem : (of item).type.same type = true → ofType of type [item] = [item] :=
        fun hsame => List.filter_cons_of_pos hsame
      rw [hof]
      rcases of_mem_addTo hmem with hold | ⟨rfl, rfl⟩ | ⟨members, hold, hsame, rfl⟩
      · obtain ⟨hne, hsub⟩ := ih hearlier hold
        exact ⟨hne, hsub.trans (List.sublist_append_left _ _)⟩
      · rw [hitem (Value.same_refl hname)]
        exact ⟨by simp, List.sublist_append_right _ _⟩
      · have hback : (of item).type.same type = true := by
          rw [← hsame, Value.same_comm hname (Value.canName_of_same_right hname hsame)]
        rw [hitem hback]
        exact ⟨by simp, (ih hearlier hold).2.append (List.Sublist.refl _)⟩

end Depot.Requirement
