/-
How far a resource key names its resource. A key is a type and a
requirement key around a colon, and nothing keeps colons out of the two
parts. So a key can be cut at any of its colons: two resources have one key
just where they are the same or where the one cut is at another colon of
the same text (`resourceKey_eq_iff`), and then their requirements are put
into one group (`colon_joins_resources`). Reading a key back gives its
parts just where neither holds a colon (`parse_resourceKey_iff`).

For parts without a colon the key is the name that it is meant to be
(`resourceKey_names_parts`).
-/
import Depot.Proofs.Requirement.Grouping
import Depot.Proofs.Text.Cut

namespace Depot

namespace Requirement

variable {t t' k k' : String} {type key config config' priority priority' : Value}
  {provenance provenance' : Provenance} {r r' : Requirement}

-- ============================================================= parts

/-- What the constructor accepts: a type and a key that count as given, and
a mapping. -/
theorem make_ok_iff :
    make type key config priority provenance = .ok r
      ↔ type.isTruthy = true ∧ key.isTruthy = true
        ∧ ∃ fs, config = .object fs ∧ r = ⟨type, key, fs, priority, provenance⟩ := by
  unfold make
  by_cases htype : type.isTruthy = true
  · by_cases hkey : key.isTruthy = true
    · cases config with
      | object fs => simp [htype, hkey, eq_comm]
      | null | bool | int | float | str | list => simp [htype, hkey]
    · simp [htype, hkey]
  · simp [htype]

/-- A requirement that is made has the type and key it was made with, and
neither is empty. -/
theorem parts_of_make (h : make (.str t) (.str k) config priority provenance = .ok r) :
    r.type = .str t ∧ r.key = .str k ∧ t ≠ "" ∧ k ≠ "" := by
  obtain ⟨ht, hk, fs, -, rfl⟩ := make_ok_iff.1 h
  exact ⟨rfl, rfl, by simpa [Value.isTruthy] using ht, by simpa [Value.isTruthy] using hk⟩

-- ============================================================== keys

/-- A key whose parts are texts: the two around a colon. -/
theorem toList_resourceKey (h : make (.str t) (.str k) config priority provenance = .ok r) :
    r.resourceKey.toList = t.toList ++ ':' :: k.toList := by
  obtain ⟨htype, hkey, -⟩ := parts_of_make h
  have hkey : r.resourceKey = t ++ ":" ++ k := by
    unfold resourceKey
    rw [htype, hkey]
    rfl
  rw [hkey, String.toList_append, String.toList_append, List.append_assoc]
  rfl

/-- Two resources have one key where they are the same, or where the one is
cut from it at another colon. -/
theorem resourceKey_eq_iff (h : make (.str t) (.str k) config priority provenance = .ok r)
    (h' : make (.str t') (.str k') config' priority' provenance' = .ok r') :
    r.resourceKey = r'.resourceKey
      ↔ (t = t' ∧ k = k') ∨ Text.CutLater ':' t.toList k.toList t'.toList k'.toList
        ∨ Text.CutLater ':' t'.toList k'.toList t.toList k.toList := by
  rw [← String.toList_inj, toList_resourceKey h, toList_resourceKey h', Text.append_mark_inj,
    String.toList_inj, String.toList_inj]

/-- The key that is formatted from the parts of a requirement is the one
that it has. -/
theorem format_parts (h : make (.str t) (.str k) config priority provenance = .ok r) :
    ResourceKey.format r.type r.key = .ok r.resourceKey := by
  obtain ⟨htype, hkey, fs, -, rfl⟩ := make_ok_iff.1 h
  unfold ResourceKey.format
  rw [htype, hkey]
  rfl

/-- A key reads back as its parts just where there is no colon in them. -/
theorem parse_resourceKey_iff (h : make (.str t) (.str k) config priority provenance = .ok r) :
    ResourceKey.parse (.str r.resourceKey) = .ok (t, k) ↔ ':' ∉ t.toList ∧ ':' ∉ k.toList := by
  obtain ⟨-, -, ht, hk⟩ := parts_of_make h
  have hcut : cutString ':' r.resourceKey
      = (Text.cut ':' t.toList).map String.ofList ++ (Text.cut ':' k.toList).map String.ofList := by
    unfold cutString
    rw [toList_resourceKey h, Text.cut_append_mark, List.map_append]
  constructor
  · intro hparse
    have htwo : (cutString ':' r.resourceKey).length = 2 := by
      simp only [ResourceKey.parse] at hparse
      split at hparse
      next hpieces =>
        rw [hpieces]
        rfl
      next => cases hparse
    rw [hcut, List.length_append, List.length_map, List.length_map] at htwo
    -- each part gives a piece at least, and two if there is a colon in it
    have htype := List.length_pos_iff.2 (Text.cut_ne_nil ':' t.toList)
    have hkey := List.length_pos_iff.2 (Text.cut_ne_nil ':' k.toList)
    constructor
    · intro hcolon
      have := Text.cut_length_of_mem hcolon
      omega
    · intro hcolon
      have := Text.cut_length_of_mem hcolon
      omega
  · rintro ⟨hnt, hnk⟩
    have hpieces : cutString ':' r.resourceKey = [t, k] := by
      rw [hcut, Text.cut_of_not_mem hnt, Text.cut_of_not_mem hnk]
      simp
    unfold ResourceKey.parse
    simp only [hpieces]
    rw [if_pos ⟨ht, hk⟩]

/-- Two requirements of a list are in one group just where they have one
key. -/
theorem grouped_together_iff {items : List Requirement} (hr : r ∈ items) (hr' : r' ∈ items) :
    (∃ g ∈ groupByResourceKey id items, r ∈ g.2 ∧ r' ∈ g.2) ↔ r.resourceKey = r'.resourceKey := by
  constructor
  · rintro ⟨⟨key, group⟩, hg, hin, hin'⟩
    obtain ⟨rfl, -⟩ := of_mem_groupByResourceKey id hg
    exact (resourceKey_of_mem_sharing id hin).trans (resourceKey_of_mem_sharing id hin').symm
  · intro hkeys
    refine ⟨(r.resourceKey, sharing id r.resourceKey items), ?_, ?_, ?_⟩
    · rw [groupByResourceKey_eq]
      exact List.mem_map.2
        ⟨r.resourceKey, List.mem_eraseDups.2 (List.mem_map.2 ⟨r, hr, rfl⟩), rfl⟩
    · exact List.mem_filter.2 ⟨hr, by simp⟩
    · exact List.mem_filter.2 ⟨hr', by simp [hkeys]⟩

/-- Among types and keys without a colon the resource key is a name: two
requirements of a list have one key, and so are in one group, just where
they have one type and one key, and the resource key reads back as these. -/
theorem resourceKey_names_parts (h : make (.str t) (.str k) config priority provenance = .ok r)
    (h' : make (.str t') (.str k') config' priority' provenance' = .ok r')
    (plain : ∀ part ∈ [t, k, t', k'], ':' ∉ part.toList) :
    (r.resourceKey = r'.resourceKey ↔ r.type = r'.type ∧ r.key = r'.key)
      ∧ (∀ items : List Requirement, r ∈ items → r' ∈ items →
        ((∃ g ∈ groupByResourceKey id items, r ∈ g.2 ∧ r' ∈ g.2)
          ↔ r.type = r'.type ∧ r.key = r'.key))
      ∧ ResourceKey.format r.type r.key = .ok r.resourceKey
      ∧ ResourceKey.parse (.str r.resourceKey) = .ok (t, k) := by
  obtain ⟨ht, hk, -⟩ := parts_of_make h
  obtain ⟨ht', hk', -⟩ := parts_of_make h'
  have hkeys : r.resourceKey = r'.resourceKey ↔ r.type = r'.type ∧ r.key = r'.key := by
    have hlater : ¬ Text.CutLater ':' t.toList k.toList t'.toList k'.toList :=
      Text.not_cutLater (plain t' (by simp))
    have hearlier : ¬ Text.CutLater ':' t'.toList k'.toList t.toList k.toList :=
      Text.not_cutLater (plain t (by simp))
    rw [resourceKey_eq_iff h h', or_iff_left (not_or.2 ⟨hlater, hearlier⟩), ht, hk, ht', hk',
      Value.str.injEq, Value.str.injEq]
  refine ⟨hkeys, fun items hr hr' => (grouped_together_iff hr hr').trans hkeys, format_parts h, ?_⟩
  exact (parse_resourceKey_iff h).2 ⟨plain t (by simp), plain k (by simp)⟩

/-- Two queues have two keys. -/
theorem queues_are_told_apart :
    let jobs : Requirement := ⟨.str "queue", .str "jobs", [], .null, .absent⟩
    let mail : Requirement := ⟨.str "queue", .str "mail", [], .null, .absent⟩
    jobs.resourceKey ≠ mail.resourceKey
      ∧ ResourceKey.parse (.str jobs.resourceKey) = .ok ("queue", "jobs") := by
  intro jobs mail
  have hjobs : make (.str "queue") (.str "jobs") (.object []) = .ok jobs := rfl
  have hmail : make (.str "queue") (.str "mail") (.object []) = .ok mail := rfl
  obtain ⟨hkeys, -, -, hparse⟩ := resourceKey_names_parts hjobs hmail (by decide)
  refine ⟨fun heq => ?_, hparse⟩
  have hkey := (hkeys.1 heq).2
  simp [jobs, mail] at hkey

/-- A colon in a part joins two resources: both requirements are accepted,
have one key and are put into one group, and the key reads back as neither. -/
theorem colon_joins_resources :
    let first : Requirement := ⟨.str "a", .str "b:c", [], .null, .absent⟩
    let second : Requirement := ⟨.str "a:b", .str "c", [], .null, .absent⟩
    make (.str "a") (.str "b:c") (.object []) = .ok first
      ∧ make (.str "a:b") (.str "c") (.object []) = .ok second
      ∧ first.type ≠ second.type ∧ first.key ≠ second.key
      ∧ groupByResourceKey id [first, second] = [("a:b:c", [first, second])]
      ∧ ∀ parts, ResourceKey.parse (.str first.resourceKey) ≠ .ok parts := by
  refine ⟨rfl, rfl, by decide, by decide, rfl, fun parts h => ?_⟩
  cases h

end Requirement

end Depot
