/-
What a deep merge of several mappings has at the end of a path of keys. A
walk along the keys ends in one of three ways (`Walk`): at a mapping that
lacks the next key, at something that is no mapping, or at a value. A
mapping in which the walk does not end in the first way decides the path.

One merge is understood from one key: under it there is what the source has,
merged over what the target has in its place (`walk_mergedOver_cons`). Three
inductions along the path follow from that, one for each way in which the
walk through the source can end. A source that lacks a key on the way
leaves the path alone; any other settles it, whatever the target has. So of
several mappings the last that decides a path counts, and those before it
are not asked (`last_deciding_mapping_counts`). What they leave behind, where
the last one has a mapping, are the entries on longer paths.
-/
import Depot.Proofs.Value.Fields
import Depot.Proofs.Value.Sequence
import Depot.Value.Merge

namespace Depot

-- ============================================================= one key

namespace Fields

/-- A deep merge puts the entries of the source one after the other. -/
theorem deepMerge_eq (target source : Fields) :
    deepMerge target source
      = source.foldl (fun acc e => put acc e.1 (Value.mergedOver (get? acc e.1) e.2)) target := by
  fun_induction deepMerge target source with
  | case1 => rfl
  | case2 target key new rest old hold _ ih =>
      rw [List.foldl_cons, hold]
      exact ih
  | case3 target key new rest hold ih =>
      have hnew : Value.mergedOver (get? target key) (.object new) = .object new := by
        unfold Value.mergedOver
        split
        · next old _ hfound heq => exact absurd hfound (hold old)
        · rfl
      rw [List.foldl_cons, hnew]
      exact ih
  | case4 target key v rest hv ih =>
      have hnew : Value.mergedOver (get? target key) v = v := by
        unfold Value.mergedOver
        split
        · next => exact absurd rfl (hv _)
        · rfl
      rw [List.foldl_cons, hnew]
      exact ih

/-- What a merge has under a key: what the source has there, merged over
what the target has in its place. -/
theorem get?_deepMerge {source : Fields} (distinct : (keys source).Nodup) (target : Fields)
    (key : String) :
    get? (deepMerge target source) key
      = match get? source key with
        | some v => some (Value.mergedOver (get? target key) v)
        | none => get? target key := by
  rw [deepMerge_eq]
  induction source generalizing target with
  | nil => rfl
  | cons e rest ih =>
      obtain ⟨k, v⟩ := e
      obtain ⟨hk, hrest⟩ := List.nodup_cons.1 distinct
      rw [List.foldl_cons, ih hrest, get?_cons, get?_put]
      by_cases hkey : key = k
      · subst hkey
        rw [get?_eq_none hk, if_pos rfl, if_pos rfl]
      · rw [if_neg hkey, if_neg hkey]

end Fields

namespace Value

/-- Where a walk along a path of keys ends. -/
inductive Walk where
  /-- At a mapping that lacks the next key. -/
  | lacking
  /-- At something that is no mapping, with keys still to go. -/
  | blocked
  /-- At the value to which the keys lead. -/
  | arrived (v : Value)
  deriving DecidableEq

/-- The walk along a path of keys. -/
def walk (v : Value) : List String → Walk
  | [] => .arrived v
  | key :: keys =>
      match v with
      | .object fs =>
          match Fields.get? fs key with
          | some w => w.walk keys
          | none => .lacking
      | _ => .blocked

/-- What a value has under a key, if it is a mapping that has the key. -/
def entry? (v : Value) (key : String) : Option Value := v.fields?.bind fun fs => Fields.get? fs key

variable {v w new : Value} {source : Fields} {key : String} {keys : List String}

/-- A walk goes on below the first key, or ends for lack of it. -/
theorem walk_cons (fs : Fields) (key : String) (keys : List String) :
    (Value.object fs).walk (key :: keys)
      = (Fields.get? fs key).elim .lacking fun w => w.walk keys := by
  rw [walk]
  cases Fields.get? fs key with
  | none => rfl
  | some w => rfl

/-- A walk is blocked where there is no mapping. -/
theorem walk_cons_of_fields?_eq_none (h : v.fields? = none) (key : String) (keys : List String) :
    v.walk (key :: keys) = .blocked := by
  cases v with
  | object fs => cases h
  | null | bool | int | float | str | list => rfl

/-- A walk is blocked by what stands at a proper part of the way. -/
theorem walk_eq_blocked_iff :
    v.walk keys = .blocked
      ↔ ∃ way w, way <+: keys ∧ way ≠ keys ∧ v.walk way = .arrived w ∧ w.fields? = none := by
  constructor
  · intro h
    induction keys generalizing v with
    | nil => cases h
    | cons key keys ih =>
        cases hv : v.fields? with
        | none => exact ⟨[], v, List.nil_prefix, (List.cons_ne_nil _ _).symm, rfl, hv⟩
        | some fs =>
            obtain rfl : v = .object fs := by
              cases v with
              | object fs' => exact congrArg Value.object (Option.some.inj hv)
              | null | bool | int | float | str | list => cases hv
            rw [walk_cons] at h
            cases hget : Fields.get? fs key with
            | none => rw [hget] at h; cases h
            | some next =>
                rw [hget] at h
                obtain ⟨way, w, hway, hne, harrived, hw⟩ := ih h
                refine ⟨key :: way, w, List.cons_prefix_cons.2 ⟨rfl, hway⟩, ?_, ?_, hw⟩
                · exact fun heq => hne (List.cons.inj heq).2
                · rw [walk_cons, hget]
                  exact harrived
  · rintro ⟨way, w, hway, hne, harrived, hw⟩
    induction way generalizing v keys with
    | nil =>
        obtain ⟨key, rest, rfl⟩ := List.exists_cons_of_ne_nil hne.symm
        injection harrived with hvw
        rw [hvw]
        exact walk_cons_of_fields?_eq_none hw key rest
    | cons key way ih =>
        obtain ⟨rest, rfl⟩ := hway
        rw [List.cons_append]
        cases v with
        | object fs =>
            rw [walk_cons] at harrived ⊢
            cases hget : Fields.get? fs key with
            | none => rw [hget] at harrived; cases harrived
            | some next =>
                rw [hget] at harrived
                refine ih (List.prefix_append way rest) ?_ harrived
                exact fun heq => hne (congrArg (key :: ·) heq)
        | null | bool | int | float | str | list => cases harrived

-- ====================================================== one merge, a path

/-- What is no mapping replaces what was there. -/
theorem mergedOver_of_fields?_eq_none (old : Option Value) (h : new.fields? = none) :
    mergedOver old new = new := by
  unfold mergedOver
  split
  · cases h
  · rfl

theorem mergedOver_none (v : Value) : mergedOver none v = v := by
  cases v with
  | object fs => rfl
  | null | bool | int | float | str | list => rfl

/-- Merging a mapping over anything gives a mapping. -/
theorem exists_mergedOver_object (old : Option Value) (source : Fields) :
    ∃ fs, mergedOver old (.object source) = .object fs := by
  unfold mergedOver
  split
  · next old new heq _ => exact ⟨_, rfl⟩
  · exact ⟨source, rfl⟩

/-- The step of every induction along a path. -/
theorem walk_mergedOver_cons (old : Option Value) (distinct : (Fields.keys source).Nodup)
    (key : String) (keys : List String) :
    (mergedOver old (.object source)).walk (key :: keys)
      = match Fields.get? source key with
        | some v => (mergedOver (old.bind fun w => w.entry? key) v).walk keys
        | none => (old.bind fun w => w.entry? key).elim .lacking fun w => w.walk keys := by
  by_cases hold : ∃ target, old = some (.object target)
  · obtain ⟨target, rfl⟩ := hold
    show (Value.object (Fields.deepMerge target source)).walk (key :: keys) = _
    rw [walk_cons, Fields.get?_deepMerge distinct]
    cases Fields.get? source key with
    | none => rfl
    | some v => rfl
  · have hnothing : (old.bind fun w => w.entry? key) = none := by
      cases old with
      | none => rfl
      | some w =>
          cases w with
          | object fs => exact absurd ⟨fs, rfl⟩ hold
          | null | bool | int | float | str | list => rfl
    have hnew : mergedOver old (.object source) = .object source := by
      unfold mergedOver
      split
      · next target _ _ => exact absurd ⟨target, rfl⟩ hold
      · rfl
    rw [hnothing, hnew, walk_cons]
    cases Fields.get? source key with
    | none => rfl
    | some v =>
        show v.walk keys = (mergedOver none v).walk keys
        rw [mergedOver_none]

/-- A source that lacks a key on the way leaves the path to the target. -/
theorem walk_mergedOver_of_lacking (distinct : new.Distinct) (h : new.walk keys = .lacking)
    (old : Option Value) (v : Value) :
    (mergedOver old new).walk keys = .arrived v ↔ ∃ w ∈ old, w.walk keys = .arrived v := by
  induction keys generalizing old new with
  | nil => cases h
  | cons key keys ih =>
      cases new with
      | object source =>
          -- the target is walked along its own entry under the key
          have hold : ((old.bind fun w => w.entry? key).elim .lacking fun w => w.walk keys)
                = .arrived v ↔ ∃ w ∈ old, w.walk (key :: keys) = .arrived v := by
            cases old with
            | none => simp
            | some w =>
                cases w with
                | object fs => simp [walk_cons, entry?, fields?]
                | null | bool | int | float | str | list => simp [walk, entry?, fields?]
          rw [walk_mergedOver_cons old distinct.1, ← hold]
          rw [walk_cons] at h
          cases hget : Fields.get? source key with
          | none => exact Iff.rfl
          | some next =>
              rw [hget] at h
              show (mergedOver _ next).walk keys = _ ↔ _
              rw [ih (distinct_of_get? distinct hget) h]
              cases old.bind fun w => w.entry? key with
              | none => simp
              | some w => simp
      | null | bool | int | float | str | list => cases h

/-- A source with something that is no mapping on the way blocks the path. -/
theorem walk_mergedOver_of_blocked (distinct : new.Distinct) (h : new.walk keys = .blocked)
    (old : Option Value) : (mergedOver old new).walk keys = .blocked := by
  induction keys generalizing old new with
  | nil => cases h
  | cons key keys ih =>
      cases hnew : new.fields? with
      | none =>
          rw [mergedOver_of_fields?_eq_none old hnew]
          exact h
      | some source =>
          cases new with
          | object fs =>
              rw [walk_mergedOver_cons old distinct.1]
              rw [walk_cons] at h
              cases hget : Fields.get? fs key with
              | none => rw [hget] at h; cases h
              | some next =>
                  rw [hget] at h
                  exact ih (distinct_of_get? distinct hget) h _
          | null | bool | int | float | str | list => cases hnew

/-- A source with a value at the end of the path has it merged over what is
there. -/
theorem walk_mergedOver_of_arrived (distinct : new.Distinct) (h : new.walk keys = .arrived v)
    (old : Option Value) :
    ∃ before, (mergedOver old new).walk keys = .arrived (mergedOver before v) := by
  induction keys generalizing old new with
  | nil =>
      injection h with h
      rw [h]
      exact ⟨old, rfl⟩
  | cons key keys ih =>
      cases new with
      | object source =>
          rw [walk_mergedOver_cons old distinct.1]
          rw [walk_cons] at h
          cases hget : Fields.get? source key with
          | none => rw [hget] at h; cases h
          | some next =>
              rw [hget] at h
              exact ih (distinct_of_get? distinct hget) h _
      | null | bool | int | float | str | list => cases h

end Value

-- ======================================================= several mappings

namespace Fields

variable {objects after : List Fields} {o : Fields} {keys : List String}

/-- A mapping decides a path, unless the walk along it comes to a mapping
that lacks the next key. -/
def Decides (keys : List String) (o : Fields) : Prop := (Value.object o).walk keys ≠ .lacking

instance (keys : List String) (o : Fields) : Decidable (Decides keys o) :=
  inferInstanceAs (Decidable (_ ≠ _))

/-- Mappings that do not decide a path leave what is at its end. -/
theorem walk_foldl_of_undecided (distinct : ∀ o ∈ after, (Value.object o).Distinct)
    (undecided : ∀ o ∈ after, ¬ Decides keys o) (target : Fields) (v : Value) :
    (Value.object (after.foldl deepMerge target)).walk keys = .arrived v
      ↔ (Value.object target).walk keys = .arrived v := by
  induction after generalizing target with
  | nil => exact Iff.rfl
  | cons o after ih =>
      obtain ⟨hdistinct, hrest⟩ := List.forall_mem_cons.1 distinct
      obtain ⟨hundecided, hundecidedRest⟩ := List.forall_mem_cons.1 undecided
      rw [List.foldl_cons, ih hrest hundecidedRest]
      show (Value.mergedOver (some (.object target)) (.object o)).walk keys = _ ↔ _
      rw [Value.walk_mergedOver_of_lacking hdistinct (not_not.1 hundecided)]
      simp

/-- Mappings merge one over the other, in order. -/
theorem deepMergeAll_append_cons (before : List Fields) (o : Fields) (after : List Fields) :
    deepMergeAll (before ++ o :: after)
      = after.foldl deepMerge (deepMerge (deepMergeAll before) o) := by
  unfold deepMergeAll
  rw [List.foldl_append, List.foldl_cons]

end Fields

/-- Mappings can always be merged. -/
theorem Value.deepMergeAll_objects (objects : List Fields) :
    Value.deepMergeAll (objects.map .object) = .ok (Fields.deepMergeAll objects) := by
  unfold Value.deepMergeAll
  rw [Value.mapM_entriesOf]
  rfl

/-- Of several mappings, the last that decides a path settles what the merge
has at its end. Where it has something that is no mapping on the way, the
path leads nowhere; where it has a value that is no mapping at the end, that
is the value; where it has a mapping there, so has the merge. A path that no
mapping decides leads nowhere. -/
theorem last_deciding_mapping_counts {objects : List Fields}
    (distinct : ∀ o ∈ objects, (Value.object o).Distinct) {keys : List String} (hne : keys ≠ []) :
    ∃ merged, Value.deepMergeAll (objects.map .object) = .ok merged
      ∧ ((∀ o ∈ objects, ¬ Fields.Decides keys o) →
        ∀ v, (Value.object merged).walk keys ≠ .arrived v)
      ∧ ∀ before o after, objects = before ++ o :: after → Fields.Decides keys o →
        (∀ later ∈ after, ¬ Fields.Decides keys later) →
        ((∃ way w, way <+: keys ∧ way ≠ keys ∧ (Value.object o).walk way = .arrived w
            ∧ w.fields? = none) →
          ∀ v, (Value.object merged).walk keys ≠ .arrived v)
        ∧ (∀ v, (Value.object o).walk keys = .arrived v → v.fields? = none →
          (Value.object merged).walk keys = .arrived v)
        ∧ (∀ fs, (Value.object o).walk keys = .arrived (.object fs) →
          ∃ gs, (Value.object merged).walk keys = .arrived (.object gs)) := by
  refine ⟨_, Value.deepMergeAll_objects objects, fun hnone v h => ?_, ?_⟩
  · rw [Fields.deepMergeAll, Fields.walk_foldl_of_undecided distinct hnone] at h
    obtain ⟨key, rest, rfl⟩ := List.exists_cons_of_ne_nil hne
    cases h
  · rintro before o after rfl - undecided
    have ho : (Value.object o).Distinct := distinct o (by simp)
    have hafter : ∀ later ∈ after, (Value.object later).Distinct :=
      fun later hlater => distinct later (by simp [hlater])
    have hlast : ∀ v, (Value.object (Fields.deepMergeAll (before ++ o :: after))).walk keys
          = .arrived v
        ↔ (Value.mergedOver (some (.object (Fields.deepMergeAll before))) (.object o)).walk keys
          = .arrived v := by
      intro v
      rw [Fields.deepMergeAll_append_cons, Fields.walk_foldl_of_undecided hafter undecided]
      rfl
    refine ⟨fun hblocked v h => ?_, fun v harrived hv => ?_, fun fs harrived => ?_⟩
    · have := Value.walk_mergedOver_of_blocked ho (Value.walk_eq_blocked_iff.2 hblocked)
        (some (.object (Fields.deepMergeAll before)))
      rw [hlast, this] at h
      cases h
    · obtain ⟨old, hmerged⟩ := Value.walk_mergedOver_of_arrived ho harrived
        (some (.object (Fields.deepMergeAll before)))
      rw [Value.mergedOver_of_fields?_eq_none old hv] at hmerged
      exact (hlast v).2 hmerged
    · obtain ⟨old, hmerged⟩ := Value.walk_mergedOver_of_arrived ho harrived
        (some (.object (Fields.deepMergeAll before)))
      obtain ⟨gs, hgs⟩ := Value.exists_mergedOver_object old fs
      rw [hgs] at hmerged
      exact ⟨gs, (hlast _).2 hmerged⟩

/-- A store that is set up, turned off and set up again. -/
def resetStore : List Fields :=
  [[("store", .object [("size", .int 1), ("tags", .list [.str "old"])])],
    [("store", .bool false)],
    [("store", .object [("size", .null)])],
    [("store", .object []), ("region", .str "eu")]]

/-- A store that was turned off keeps only what is set later: its size, which
is null, and not its tags. -/
theorem reset_store_forgets_tags :
    (∀ o ∈ resetStore, (Value.object o).Distinct)
      ∧ Fields.Decides ["store", "tags"] [("store", .bool false)]
      ∧ ∃ merged, Value.deepMergeAll (resetStore.map .object) = .ok merged
        ∧ (Value.object merged).walk ["store", "size"] = .arrived .null
        ∧ ∀ v, (Value.object merged).walk ["store", "tags"] ≠ .arrived v := by
  have hdistinct : ∀ o ∈ resetStore, (Value.object o).Distinct := by
    simp [resetStore, Value.Distinct, Value.FieldsDistinct, Value.ItemsDistinct]
  obtain ⟨merged, hmerged, -, hsize⟩ :=
    last_deciding_mapping_counts hdistinct (List.cons_ne_nil "store" ["size"])
  obtain ⟨merged', hmerged', -, htags⟩ :=
    last_deciding_mapping_counts hdistinct (List.cons_ne_nil "store" ["tags"])
  cases hmerged.symm.trans hmerged'
  refine ⟨hdistinct, by decide, merged, hmerged, ?_, ?_⟩
  · exact (hsize (resetStore.take 2) _ (resetStore.drop 3) rfl (by decide) (by decide)).2.1
      .null rfl rfl
  · exact (htags (resetStore.take 1) _ (resetStore.drop 2) rfl (by decide) (by decide)).1
      ⟨["store"], .bool false, by simp, by simp, rfl, rfl⟩

end Depot
