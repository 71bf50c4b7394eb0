/-
Merging the same configurations in another order. When all of them have
one priority the order decides nothing that matters: strict merges of
either order fail together, and where they return the merged
configurations are alike (`Merger.reordered_merges_are_alike`).

The order does show in a result. It decides in which order keys and list
items stand, which of several items of one identity is kept, and which of
`5` and `5.0` is the greater; likeness is what these choices leave
untouched. Where priority would let the earliest of several values win, a
merge of level ranks that is clear has one value there
(`Strategy.Decides.alike`).

All this is for values that can be written, since a path whose values cannot
is dropped, or the failure is another one
(`strict_merge_fails_unless_written`). And it is for numbers as `Double` has
them: a number that is not a number, which is not like itself, is none of
them.
-/
import Depot.Proofs.Merge.Parallel
import Depot.Proofs.Value.Alike

namespace Depot.Merge

variable {shares shares' : List Share} {key : String}

-- ============================================================ distinct

/-- The mappings in the shares have each key once. -/
def AllDistinct (shares : List Share) : Prop := ∀ s ∈ shares, s.value.Distinct

/-- Fields of a value with distinct keys have distinct keys. -/
theorem distinct_field {v : Value} (hv : v.Distinct) (key : String) : (v.field key).Distinct := by
  cases v with
  | object fs =>
      show (Fields.getD fs key).Distinct
      unfold Fields.getD
      cases hget : Fields.get? fs key with
      | none => trivial
      | some w => exact Value.fieldsDistinct_iff.1 hv.2 _ (Table.mem_of_lookup hget)
  | _ => trivial

theorem distinct_below (h : AllDistinct shares) (key : String) :
    AllDistinct (below shares key) := by
  intro s hs
  obtain ⟨t, ht, rfl⟩ := List.mem_map.1 (List.mem_filter.1 hs).1
  exact distinct_field (h t ht) key

theorem distinct_listed {v w : Value} (hv : v.Distinct) (hw : w ∈ v.listed) : w.Distinct := by
  cases v with
  | list xs => exact Value.itemsDistinct_iff.1 hv w hw
  | _ => cases hw

theorem Parallel.allDistinct (h : Parallel shares shares') (hall : AllDistinct shares) :
    AllDistinct shares' := h.forall_values hall

-- =============================================================== lists

/-- Lists with items of the same wire texts are alike. -/
theorem alike_of_wires {xs ys : List Value} (hys : ∀ y ∈ ys, y.Distinct)
    (h : ∀ text, (∃ x ∈ xs, x.wire = text) ↔ ∃ y ∈ ys, y.wire = text) :
    (Value.list xs).alike (.list ys) = true := by
  refine Value.alike_lists.2 ⟨?_, ?_⟩
  · intro x hx
    obtain ⟨y, hy, hwire⟩ := (h x.wire).1 ⟨x, hx, rfl⟩
    exact ⟨y, hy, Value.alike_of_wire_eq (hys y hy) hwire.symm⟩
  · intro y hy
    obtain ⟨x, hx, hwire⟩ := (h y.wire).2 ⟨y, hy, rfl⟩
    exact ⟨x, hx, Value.alike_of_wire_eq (hys y hy) hwire⟩

theorem lists_iff {s : Share} : s.lists key = true ↔ ∃ x ∈ s.value.listed, x.wire = key := by
  unfold Share.lists
  simp

/-- A union has the wire texts that some list has. -/
theorem union_wires (shares : List Share) (key : String) :
    (∃ x ∈ Value.firstOccurrences (shares.flatMap fun s => s.value.listed), x.wire = key)
      ↔ ∃ s ∈ shares, s.lists key = true := by
  constructor
  · rintro ⟨x, hx, rfl⟩
    obtain ⟨s, hs, hmem⟩ := List.mem_flatMap.1 ((Value.firstOccurrences_sublist _).subset hx)
    exact ⟨s, hs, lists_iff.2 ⟨x, hmem, rfl⟩⟩
  · rintro ⟨s, hs, hlists⟩
    obtain ⟨x, hx, rfl⟩ := lists_iff.1 hlists
    exact Value.exists_firstOccurrence (List.mem_flatMap.2 ⟨s, hs, hx⟩)

/-- An intersection has the wire texts that all lists have. -/
theorem common_wires (hne : shares ≠ []) (key : String) :
    (∃ x ∈ common shares, x.wire = key) ↔ ∀ s ∈ shares, s.lists key = true := by
  obtain ⟨first, rest, rfl⟩ := List.exists_cons_of_ne_nil hne
  rw [List.forall_mem_cons, lists_iff]
  constructor
  · rintro ⟨x, hx, rfl⟩
    obtain ⟨hfirst, hrest⟩ := List.mem_filter.1 hx
    exact ⟨⟨x, hfirst, rfl⟩, List.all_eq_true.1 hrest⟩
  · rintro ⟨⟨x, hfirst, rfl⟩, hrest⟩
    exact ⟨x, List.mem_filter.2 ⟨hfirst, List.all_eq_true.2 hrest⟩, rfl⟩

theorem distinct_of_mem_union (hall : AllDistinct shares) {x : Value}
    (hx : x ∈ Value.firstOccurrences (shares.flatMap fun s => s.value.listed)) : x.Distinct := by
  obtain ⟨s, hs, hmem⟩ := List.mem_flatMap.1 ((Value.firstOccurrences_sublist _).subset hx)
  exact distinct_listed (hall s hs) hmem

theorem distinct_of_mem_common (hall : AllDistinct shares) {x : Value} (hx : x ∈ common shares) :
    x.Distinct := by
  cases shares with
  | nil => cases hx
  | cons first rest =>
      exact distinct_listed (hall first List.mem_cons_self) (List.mem_filter.1 hx).1

-- ========================================================== strategies

namespace Parallel

variable (h : Parallel shares shares')

include h

/-- An item is listed on one side if it is on the other. -/
theorem exists_lists_iff (key : String) :
    (∃ s ∈ shares, s.lists key = true) ↔ ∃ s ∈ shares', s.lists key = true := by
  constructor
  · rintro ⟨s, hs, hlists⟩
    obtain ⟨s', hs', hvalue⟩ := h.exists_value hs
    exact ⟨s', hs', by rwa [Share.lists, hvalue]⟩
  · rintro ⟨s', hs', hlists⟩
    obtain ⟨s, hs, hvalue⟩ := h.symm.exists_value hs'
    exact ⟨s, hs, by rwa [Share.lists, hvalue]⟩

theorem forall_lists_iff (key : String) :
    (∀ s ∈ shares, s.lists key = true) ↔ ∀ s ∈ shares', s.lists key = true :=
  ⟨h.forall_values (P := fun v => (v.listed.any fun x => x.wire = key) = true),
    h.symm.forall_values (P := fun v => (v.listed.any fun x => x.wire = key) = true)⟩

theorem ne_nil (hne : shares ≠ []) : shares' ≠ [] := by
  rintro rfl
  exact hne (List.length_eq_zero_iff.1 h.length_eq)

end Parallel

/-- What a strategy decides in either order is alike, if priority has only
one value to choose from. -/
theorem Strategy.Decides.alike {way : Strategy} {v v' : Value} (hd : way.Decides shares v)
    (hd' : way.Decides shares' v') (h : Parallel shares shares') (hne : shares ≠ [])
    (hsuits : way.Suits shares) (hall : AllDistinct shares)
    (hagree : way = .priority → Agree shares) : v.alike v' = true := by
  have hall' := h.allDistinct hall
  -- an extreme of one order has the size of the extreme of the other
  have hextreme : Numeric shares → ∀ s ∈ shares, ∀ s' ∈ shares',
      s.value.size = s'.value.size → s.value.alike s'.value = true := by
    intro hnumeric s hs s' hs' hsize
    have hnumeric' : Numeric shares' :=
      h.forall_values (P := fun v => v.isNumber = true) hnumeric
    exact (Value.alike_numbers (hnumeric s hs) (hnumeric' s' hs')).2 hsize
  cases way with
  | union =>
      rw [show v = _ from hd, show v' = _ from hd']
      refine alike_of_wires (fun x => distinct_of_mem_union hall') fun key => ?_
      rw [union_wires, union_wires, h.exists_lists_iff]
  | intersection =>
      rw [show v = _ from hd, show v' = _ from hd']
      refine alike_of_wires (fun x => distinct_of_mem_common hall') fun key => ?_
      rw [common_wires hne, common_wires (h.ne_nil hne), h.forall_lists_iff]
  | maximum =>
      obtain ⟨s, hs, rfl, hmost⟩ := hd
      obtain ⟨s', hs', rfl, hmost'⟩ := hd'
      obtain ⟨t', ht', hvalue'⟩ := h.exists_value hs
      obtain ⟨t, ht, hvalue⟩ := h.symm.exists_value hs'
      refine hextreme hsuits s hs s' hs' (le_antisymm ?_ ?_)
      · exact hvalue' ▸ hmost' t' ht'
      · exact hvalue ▸ hmost t ht
  | minimum =>
      obtain ⟨s, hs, rfl, hleast⟩ := hd
      obtain ⟨s', hs', rfl, hleast'⟩ := hd'
      obtain ⟨t', ht', hvalue'⟩ := h.exists_value hs
      obtain ⟨t, ht, hvalue⟩ := h.symm.exists_value hs'
      refine hextreme hsuits s hs s' hs' (le_antisymm ?_ ?_)
      · exact hvalue ▸ hleast t ht
      · exact hvalue' ▸ hleast' t' ht'
  | priority =>
      obtain ⟨before, s, after, rfl, rfl, -⟩ := hd
      obtain ⟨before', s', after', rfl, rfl, -⟩ := hd'
      have hs : s ∈ before ++ s :: after := by simp
      have hs' : s' ∈ before' ++ s' :: after' := by simp
      obtain ⟨t, ht, hvalue⟩ := h.symm.exists_value hs'
      refine Value.alike_of_wire_eq (hall' s' hs') ?_
      rw [← hvalue]
      exact hagree rfl s hs t ht
  | custom => exact hd.elim

-- ============================================================== joined

/-- What stands under a key is alike if what several values were merged to
is. -/
theorem joinedAt_alike {v v' w : Value} (h : Parallel shares shares')
    (hall : AllDistinct shares)
    (hseveral : 1 < shares.length → v ≠ .null ∧ v' ≠ .null ∧ v.alike v' = true)
    (hw : joinedAt shares v = some w) :
    ∃ w', joinedAt shares' v' = some w' ∧ w.alike w' = true := by
  have hlength := h.length_eq
  match shares, shares' with
  | [], _ => cases hw
  | [s], [s'] =>
      injection hw with hw
      obtain ⟨t', ht', hvalue⟩ := h.exists_value (List.mem_singleton_self s)
      rw [List.mem_singleton.1 ht'] at hvalue
      refine ⟨s'.value, rfl, ?_⟩
      rw [← hw, hvalue]
      exact Value.alike_refl (hall s (List.mem_singleton_self s))
  | s :: t :: rest, s' :: t' :: rest' =>
      obtain ⟨hstands, hstands', halike⟩ := hseveral (by simp)
      rw [joinedAt_of_several (by simp) hstands] at hw
      injection hw with hw
      exact ⟨v', joinedAt_of_several (by simp) hstands', hw ▸ halike⟩
  | [s], [] | [s], _ :: _ :: _ | s :: t :: rest, [] | s :: t :: rest, [_] => simp at hlength

/-- A clear merge of level shares comes to a value like that of any merge of
the same values in another order. -/
theorem Merges.alike {default : Strategy} {path : String} {v v' : Value} {notes notes' : Ledger}
    (hmerges : Merges default path shares v notes)
    (hmerges' : Merges default path shares' v' notes') (h : Parallel shares shares')
    (hlevel : Level shares) (hall : AllDistinct shares) (hclear : notes.Clear)
    (hwritable : Writable shares) (hwritable' : Writable shares') : v.alike v' = true := by
  induction hmerges generalizing shares' v' notes' with
  | @settled path shares v notes mixed settles =>
      cases hmerges' with
      | settled mixed' settles' =>
          have hne : shares ≠ [] := by
            rintro rfl
            exact mixed fun s hs => by cases hs
          have hdecides' := settles'.decides
          rw [← h.wayFor_eq] at hdecides'
          exact settles.decides.alike hdecides' h hne (suits_wayFor default path shares) hall
            fun hway => (settles.clear.1 hclear).2 hway hlevel
      | dropped mixed' drops' => exact absurd hwritable' drops'.unwritable
      | joined value' notes' mapped' several' => exact absurd (h.mapped_iff.2 mapped') mixed
  | dropped mixed drops => exact absurd hwritable drops.unwritable
  | @joined path shares value notes mapped several ih =>
      cases hmerges' with
      | settled mixed' settles' => exact absurd (h.mapped_iff.1 mapped) mixed'
      | dropped mixed' drops' => exact absurd (h.mapped_iff.1 mapped) mixed'
      | joined value' notes' mapped' several' =>
          have hstands' : ∀ key, 1 < (Merge.below shares' key).length → value' key ≠ .null :=
            fun key hlong => (several' key hlong).ne_null (hwritable'.below key)
          have hkey : ∀ key, 1 < (Merge.below shares key).length →
              value key ≠ .null ∧ value' key ≠ .null ∧ (value key).alike (value' key) = true := by
            intro key hlong
            have hlong' : 1 < (Merge.below shares' key).length := (h.below key).length_eq ▸ hlong
            refine ⟨(several key hlong).ne_null (hwritable.below key), hstands' key hlong', ?_⟩
            exact ih key hlong (several' key hlong') (h.below key) (level_below hlevel key)
              (distinct_below hall key) (clear_joinedNotes.1 hclear key hlong)
              (hwritable.below key) (hwritable'.below key)
          refine Value.alike_objects.2 ⟨fun e he => ?_, fun e he => ?_⟩
          · rw [get?_joined]
            exact joinedAt_alike (h.below e.1) (distinct_below hall e.1) (hkey e.1) (mem_joined he)
          · rw [get?_joined, ← Option.isSome_iff_exists,
              isSome_joinedAt fun hlong => (hkey e.1 hlong).1]
            have hsome := Option.isSome_iff_exists.2 ⟨_, mem_joined he⟩
            exact (h.below e.1).symm.ne_nil ((isSome_joinedAt (hstands' e.1)).1 hsome)

-- ======================================================== whole merges

/-- Equal priorities make level shares. -/
theorem Shared.level {configs : List Fields} {sources priorities : List Value}
    (h : Shared configs sources priorities shares)
    (hequal : ∀ p ∈ priorities, ∀ q ∈ priorities, p = q) : Level shares := by
  have hranks : (if priorities.isEmpty then List.replicate configs.length (.int defaultPriority)
      else priorities) = shares.map fun s => .int s.rank := congrArg Context.priorities h.origins
  have hall : ∀ p ∈ shares.map (fun s => Value.int s.rank),
      ∀ q ∈ shares.map (fun s => Value.int s.rank), p = q := by
    rw [← hranks]
    split
    · intro p hp q hq
      rw [List.eq_of_mem_replicate hp, List.eq_of_mem_replicate hq]
    · exact hequal
  intro s hs t ht
  injection hall _ (List.mem_map_of_mem hs) _ (List.mem_map_of_mem ht)

/-- The same configurations in another order are parallel shares. -/
theorem Shared.parallel {configs configs' : List Fields} {sources sources' : List Value}
    {priorities : List Value} (h : Shared configs sources priorities shares)
    (h' : Shared configs' sources' priorities shares') (hperm : configs.Perm configs')
    (hequal : ∀ p ∈ priorities, ∀ q ∈ priorities, p = q) : Parallel shares shares' := by
  refine ⟨?_, .inr ⟨h.level hequal, h'.level hequal⟩⟩
  rw [h.values, h'.values]
  exact hperm.map _

/-- A merger that has nothing but its strategies. -/
structure Merger.IsPlain (m : Merger) : Prop where
  customs : m.customs = {}
  rules : m.rules = []
  checks : m.checks = {}

/-- What a merge of writable shares reports as a conflict can be written. -/
theorem Merges.shown_writable {default : Strategy} {path : String} {v : Value} {notes : Ledger}
    (h : Merges default path shares v notes) (hwritable : Writable shares) :
    ∀ c ∈ notes.conflicts, (Value.list c.shown).isWritable = true := by
  induction h with
  | settled mixed settles => exact fun c hc => (settles.concerns c hc).shown_writable hwritable
  | dropped mixed drops => exact absurd hwritable drops.unwritable
  | joined value notes mapped several ih =>
      intro c hc
      obtain ⟨key, hlong, hkey⟩ := mem_conflicts_joinedNotes hc
      exact ih key hlong (hwritable.below key) c hkey

/-- A strict merge without rules and checks fails as a merge unless all is
clear, if its shares can be written. -/
theorem Root.strict_result {m : Merger} (hplain : m.IsPlain) (hstrict : m.strict = true)
    {configs : List Fields} {sources priorities : List Value} {fs : Fields} {notes : Ledger}
    (h : Root m configs sources priorities shares fs notes) (hwritable : Writable shares) :
    (notes.Clear ∧ ∃ merged, merged.config = fs
      ∧ (m.mergeConfigs (configs.map .object) sources priorities).result = .ok merged)
    ∨ (¬ notes.Clear ∧ ∃ fault, fault.kind? = some .merge
      ∧ (m.mergeConfigs (configs.map .object) sources priorities).result = .error fault) := by
  have hrules : incompatibilities (.object fs) m.rules = .ok [] := by
    rw [hplain.rules]
    rfl
  have hchecks : m.checks.check (.object fs) = .ok {} := by
    rw [hplain.checks]
    rfl
  let found : Merged := ⟨fs, notes.conflicts.filter Conflict.resolvable,
    notes.conflicts.filter fun c => !c.resolvable, [], notes.warnings,
    if m.tracing then some notes.traces else none⟩
  have hchecked : checked m fs notes = .ok (found, notes.conflicts.length) := by
    unfold checked
    rw [hrules, hchecks]
    show Except.ok ((⟨fs, (notes.conflicts ++ []).filter _, (notes.conflicts ++ []).filter _, [],
      notes.warnings ++ [], _⟩ : Merged), (notes.conflicts ++ []).length) = _
    rw [List.append_nil, List.append_nil]
  have hsuccess : found.success = true ↔ notes.Clear := by
    have hempty : found.success = true ↔ notes.conflicts.filter (fun c => !c.resolvable) = [] := by
      show (List.isEmpty _ && true) = true ↔ _
      rw [Bool.and_true, List.isEmpty_iff]
    rw [hempty, List.filter_eq_nil_iff]
    simp [Ledger.Clear]
  rw [h.run_eq, hchecked]
  by_cases hclear : notes.Clear
  · refine .inl ⟨hclear, found, rfl, ?_⟩
    show (if m.strict && !found.success then _ else _) = _
    rw [hsuccess.2 hclear, Bool.not_true, Bool.and_false]
    rfl
  · have hshown : (Value.list found.shown).isWritable = true := by
      show (Value.list (found.unresolvable.flatMap Conflict.shown ++ [])).isWritable = true
      rw [List.append_nil, Value.isWritable_list_iff, List.forall_mem_flatMap]
      intro c hc
      exact Value.isWritable_list_iff.1
        (h.merges.shown_writable hwritable c (List.mem_filter.1 hc).1)
    refine .inr ⟨hclear, found.failure (configs.map .object),
      (found.failure_cases (configs.map .object)).resolve_right (fun hlong => hlong.2 hshown), ?_⟩
    show (if m.strict && !found.success then _ else _) = _
    rw [hstrict, Bool.eq_false_iff.2 (mt hsuccess.1 hclear)]
    rfl

/-- Strict merges of the same configurations in two orders, all of one
priority, either both fail as merges or both return configurations that
are alike, if the configurations and the priority can be written. The
configurations are JSON: a number in them is like itself, which what is no
number would not be. -/
theorem Merger.reordered_merges_are_alike {m : Merger} (hplain : m.IsPlain)
    (hstrict : m.strict = true) {configs configs' : List Fields}
    (hdistinct : ∀ c ∈ configs, (Value.object c).Distinct)
    (hconfigs : ∀ c ∈ configs, (Value.object c).isWritable = true) (hperm : configs.Perm configs')
    {sources sources' priorities : List Value} (hsources : Fits .str configs.length sources)
    (hsources' : Fits .str configs'.length sources')
    (hpriorities : Fits .int configs.length priorities)
    (hequal : ∀ p ∈ priorities, ∀ q ∈ priorities, p = q)
    (hranks : ∀ p ∈ priorities, p.isWritable = true) :
    (∃ fault fault', fault.kind? = some .merge ∧ fault'.kind? = some .merge
      ∧ (m.mergeConfigs (configs.map .object) sources priorities).result = .error fault
      ∧ (m.mergeConfigs (configs'.map .object) sources' priorities).result = .error fault')
    ∨ ∃ merged merged' : Merged,
      (m.mergeConfigs (configs.map .object) sources priorities).result = .ok merged
      ∧ (m.mergeConfigs (configs'.map .object) sources' priorities).result = .ok merged'
      ∧ (Value.object merged.config).alike (.object merged'.config) = true := by
  obtain ⟨shares, hshared⟩ := exists_shared hsources hpriorities
  obtain ⟨shares', hshared'⟩ := exists_shared hsources' (hperm.length_eq ▸ hpriorities)
  obtain ⟨fs, notes, hroots⟩ := hshared.root m.default
  obtain ⟨fs', notes', hroots'⟩ := hshared'.root m.default
  have hroot := hroots m ⟨hplain.customs, rfl⟩
  have hroot' := hroots' m ⟨hplain.customs, rfl⟩
  have hparallel := hshared.parallel hshared' hperm hequal
  have hwritable : Writable shares := hshared.writable hconfigs hranks
  have hwritable' : Writable shares' :=
    hshared'.writable (fun c hc => hconfigs c (hperm.mem_iff.2 hc)) hranks
  have hclear : notes.Clear ↔ notes'.Clear :=
    hroot.merges.clear_iff hroot'.merges hparallel hwritable hwritable'
  rcases hroot.strict_result hplain hstrict hwritable with ⟨hok, merged, hconfig, hresult⟩
    | ⟨hnot, fault, hkind, hresult⟩
  · rcases hroot'.strict_result hplain hstrict hwritable' with ⟨-, merged', hconfig', hresult'⟩
      | ⟨hnot', -⟩
    · refine .inr ⟨merged, merged', hresult, hresult', ?_⟩
      have hall : AllDistinct shares := by
        intro s hs
        have hvalue := List.mem_map_of_mem (f := Share.value) hs
        rw [hshared.values] at hvalue
        obtain ⟨c, hc, hcs⟩ := List.mem_map.1 hvalue
        exact hcs ▸ hdistinct c hc
      rw [hconfig, hconfig']
      exact hroot.merges.alike hroot'.merges hparallel (hshared.level hequal) hall hok hwritable
        hwritable'
    · exact absurd (hclear.1 hok) hnot'
  · rcases hroot'.strict_result hplain hstrict hwritable' with ⟨hok', -⟩
      | ⟨-, fault', hkind', hresult'⟩
    · exact absurd (hclear.2 hok') hnot
    · exact .inl ⟨fault, fault', hkind, hkind', hresult, hresult'⟩

/-- Two sources with different tags, whose labels are in another order. -/
def taggedConfigs : List Fields :=
  [[("tags", .list [.str "a", .str "b"]), ("labels", .object [("x", .int 1), ("y", .null)])],
    [("labels", .object [("y", .null), ("x", .int 1)]), ("tags", .list [.str "c", .str "b"])]]

theorem distinct_taggedConfigs : ∀ c ∈ taggedConfigs, (Value.object c).Distinct := by
  simp [taggedConfigs, Value.Distinct, Value.FieldsDistinct, Value.ItemsDistinct]

theorem reversed_tags_are_alike : ∃ m : Merger, m.IsPlain ∧ m.strict = true
    ∧ taggedConfigs.Perm taggedConfigs.reverse
    ∧ ∃ merged merged' : Merged,
      (m.mergeConfigs (taggedConfigs.map .object) [] [.int 5, .int 5]).result = .ok merged
      ∧ (m.mergeConfigs (taggedConfigs.reverse.map .object) [] [.int 5, .int 5]).result
        = .ok merged'
      ∧ (Value.object merged.config).alike (.object merged'.config) = true := by
  let m : Merger := { strict := true }
  have hplain : m.IsPlain := ⟨rfl, rfl, rfl⟩
  have hperm : taggedConfigs.Perm taggedConfigs.reverse := (List.reverse_perm _).symm
  have heither := Merger.reordered_merges_are_alike hplain rfl distinct_taggedConfigs (by decide)
    hperm (.inl rfl) (.inl rfl) (.inr ⟨[5, 5], rfl, rfl⟩ : Fits .int _ [.int 5, .int 5]) (by simp)
    (by decide)
  refine ⟨m, hplain, rfl, hperm, heither.resolve_left ?_⟩
  rintro ⟨fault, fault', -, -, hfails, -⟩
  cases hfails

/-- A strict merge neither returns nor fails as a merge if what stands against
it cannot be written, or if a source is missing. -/
theorem strict_merge_fails_unless_written :
    (({ strict := true } : Merger).mergeConfigs
        (sharingKey (.int Written.leastTooLong) (.str "x")) []).failure? = some none
    ∧ (({ strict := true } : Merger).mergeConfigs (sharingKey (.int 1) (.int 1))
        [.str "x"]).failure? = some none :=
  ⟨by decide +kernel, by decide +kernel⟩

end Depot.Merge
