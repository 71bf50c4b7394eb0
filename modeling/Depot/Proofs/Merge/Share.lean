/-
What the configurations have at one path. A merge passes values along in
one list and their sources and priorities in two others, position by
position. Here the three are one list of shares: a share is a value with
the source it came from and the rank it counts with. A context whose lists
fit the values is the context of some shares (`context`), and what a merge
asks of such a context is always there: the origins of the values
(`contributions_shares`) and the context of a path below, which is that of
the shares below (`given_eq`, `narrow_eq`).
-/
import Depot.Merge.Configuration
import Depot.Proofs.Table
import Depot.Proofs.Value.Sequence
import Depot.Proofs.Value.Writing
import Depot.Proofs.Work

namespace Depot.Merge

/-- What one configuration has at a path. -/
structure Share where
  value : Value
  source : String
  rank : Int

namespace Share

/-- The share with its origin as a merge reports it. -/
def contribution (s : Share) : Contribution := ⟨s.value, .str s.source, .int s.rank⟩

/-- The share of a path below; null where there is nothing. -/
def field (s : Share) (key : String) : Share := { s with value := s.value.field key }

/-- The entries of the share's value; none where it is no mapping. -/
def entries (s : Share) : Fields := s.value.entries

end Share

variable {shares : List Share}

-- ============================================================ contexts

/-- The context of some shares at a path. -/
def context (path : String) (shares : List Share) : Context :=
  ⟨.str path, shares.map fun s => .str s.source, shares.map fun s => .int s.rank⟩

/-- The path of a key below a path. -/
def pathBelow (path key : String) : String := s!"{path}.{key}"

theorem sourceAt_context {i : Nat} {s : Share} (path : String) (h : shares[i]? = some s) :
    (context path shares).sourceAt i = .ok (.str s.source) := Value.itemAt_map _ h

theorem priorityAt_context {i : Nat} {s : Share} (path : String) (h : shares[i]? = some s) :
    (context path shares).priorityAt i = .ok (.int s.rank) := Value.itemAt_map _ h

-- ======================================================= chosen shares

/-- Some of the shares with their positions. -/
def chosen (p : Share → Bool) (shares : List Share) : List (Share × Nat) :=
  shares.zipIdx.filter fun e => p e.1

/-- Choosing among shares is choosing among what they give. -/
theorem chosen_shares (p : Share → Bool) (shares : List Share) :
    (chosen p shares).map Prod.fst = shares.filter p := by
  have hall : shares.zipIdx.map Prod.fst = shares := List.zipIdx_map_fst 0 shares
  calc (chosen p shares).map Prod.fst = (shares.zipIdx.map Prod.fst).filter p :=
        List.filter_map.symm
    _ = shares.filter p := by rw [hall]

/-- A walk over chosen shares that asks each for what is there. -/
theorem mapM_chosen {β : Type} {p : Share → Bool} {f : Share × Nat → Except Fault β}
    {g : Share → β} (h : ∀ s i, shares[i]? = some s → f (s, i) = .ok (g s)) :
    (chosen p shares).mapM f = .ok ((shares.filter p).map g) := by
  rw [← chosen_shares, List.map_map]
  exact mapM_ok fun e he =>
    h e.1 e.2 (List.mem_zipIdx_iff_getElem?.1 (List.mem_filter.1 he).1)

/-- The origins of chosen values are known. -/
theorem contributions_chosen (path : String) (shares : List Share) (p : Value → Bool) :
    contributions ((shares.map Share.value).zipIdx.filter fun e => p e.1) (context path shares)
      = .ok ((shares.filter fun s => p s.value).map Share.contribution) := by
  have hvalues : (shares.map Share.value).zipIdx.filter (fun e => p e.1)
      = (chosen (fun s => p s.value) shares).map fun e => (e.1.value, e.2) := by
    rw [List.zipIdx_map, List.filter_map]
    rfl
  rw [hvalues, contributions, List.mapM_map]
  refine mapM_chosen fun s i hs => ?_
  simp only [Function.comp_apply, sourceAt_context path hs, priorityAt_context path hs]
  rfl

/-- The origins of all values. -/
theorem contributions_all (path : String) (shares : List Share) :
    contributions (shares.map Share.value).zipIdx (context path shares)
      = .ok (shares.map Share.contribution) := by
  have h := contributions_chosen path shares fun _ => true
  rwa [List.filter_eq_self.2 fun _ _ => rfl, List.filter_eq_self.2 fun _ _ => rfl] at h

-- ========================================================= paths below

/-- The shares of a path below, where there is something. -/
def below (shares : List Share) (key : String) : List Share :=
  (shares.map fun s => s.field key).filter fun s => !s.value.isNull

/-- The shares below a key are the fields of those that have something
there. -/
theorem below_eq (shares : List Share) (key : String) :
    below shares key
      = (shares.filter fun s => !(s.field key).value.isNull).map fun s => s.field key := by
  rw [below, List.filter_map]
  rfl

theorem ne_null_of_mem_below {key : String} {s : Share} (h : s ∈ below shares key) :
    s.value ≠ .null := by
  intro hnull
  have hkept := (List.mem_filter.1 h).2
  rw [hnull] at hkept
  cases hkept

/-- The values that are given for a key are those of the shares below. -/
theorem given_eq (shares : List Share) (key : String) :
    given (shares.map Share.entries) key
      = (chosen (fun s => !(s.field key).value.isNull) shares).map
          fun e => ((e.1.field key).value, e.2) := by
  have hfield : ∀ s : Share, Fields.getD s.entries key = (s.field key).value := by
    intro s
    unfold Share.entries Share.field Value.entries Value.field
    cases s.value with
    | object fs => rfl
    | _ => rfl
  have hpairs : ((shares.map Share.entries).zipIdx.map fun e => (Fields.getD e.1 key, e.2))
      = shares.zipIdx.map fun e => ((e.1.field key).value, e.2) := by
    rw [List.zipIdx_map, List.map_map]
    refine List.map_congr_left fun e _ => ?_
    show (Fields.getD e.1.entries key, e.2) = _
    rw [hfield]
  show ((shares.map Share.entries).zipIdx.map fun e => (Fields.getD e.1 key, e.2)).filter
    (fun e => !e.1.isNull) = _
  rw [hpairs, List.filter_map]
  rfl

/-- What mappings give under a key is what the shares below have. -/
theorem given_values (shares : List Share) (key : String) :
    (given (shares.map Share.entries) key).map Prod.fst = (below shares key).map Share.value := by
  rw [given_eq, below_eq, ← chosen_shares, List.map_map, List.map_map, List.map_map]
  rfl

/-- The context of a path below is that of the shares below. -/
theorem narrow_eq (path : String) (shares : List Share) (key : String) :
    (context path shares).narrow (.str (pathBelow path key))
        ((given (shares.map Share.entries) key).map Prod.snd)
      = .ok (context (pathBelow path key) (below shares key)) := by
  have hsources := mapM_chosen (p := fun s => !(s.field key).value.isNull)
    (f := fun e => (context path shares).sourceAt e.2) fun s i hs => sourceAt_context path hs
  have hranks := mapM_chosen (p := fun s => !(s.field key).value.isNull)
    (f := fun e => (context path shares).priorityAt e.2) fun s i hs => priorityAt_context path hs
  rw [given_eq, List.map_map, Context.narrow, List.mapM_map, List.mapM_map, below_eq]
  simp only [Function.comp_def]
  rw [hsources, hranks, context, List.map_map, List.map_map]
  rfl

-- ============================================================= writing

/-- The values of the shares can be written, and so can their ranks unless all
values are the same. -/
structure Writable (shares : List Share) : Prop where
  values : ∀ s ∈ shares, s.value.isWritable = true
  ranks : (∃ s ∈ shares, ∃ t ∈ shares, s.value ≠ t.value) →
    ∀ s ∈ shares, Written.isWritable s.rank = true

theorem Writable.list (h : Writable shares) :
    (Value.list (shares.map Share.value)).isWritable = true :=
  Value.isWritable_list_iff.2 (List.forall_mem_map.2 h.values)

/-- What a writable value has under a key is writable. -/
theorem isWritable_field {v : Value} (hv : v.isWritable = true) (key : String) :
    (v.field key).isWritable = true := by
  cases v with
  | object fs =>
      rw [Value.isWritable, Value.fieldsWritable_eq, List.all_eq_true] at hv
      show (Fields.getD fs key).isWritable = true
      unfold Fields.getD
      cases hget : Fields.get? fs key with
      | none => rfl
      | some w => exact hv _ (Table.mem_of_lookup hget)
  | _ => rfl

theorem mem_below {key : String} {s : Share} (h : s ∈ below shares key) :
    ∃ t ∈ shares, s = t.field key := by
  obtain ⟨t, ht, rfl⟩ := List.mem_map.1 (List.mem_filter.1 h).1
  exact ⟨t, ht, rfl⟩

/-- Below a key everything can be written if it can above. -/
theorem Writable.below (h : Writable shares) (key : String) : Writable (below shares key) := by
  constructor
  · intro s hs
    obtain ⟨t, ht, rfl⟩ := mem_below hs
    exact isWritable_field (h.values t ht) key
  · rintro ⟨s, hs, s', hs', hdiffer⟩ u hu
    obtain ⟨t, ht, rfl⟩ := mem_below hs
    obtain ⟨t', ht', rfl⟩ := mem_below hs'
    obtain ⟨w, hw, rfl⟩ := mem_below hu
    refine h.ranks ⟨t, ht, t', ht', fun hsame => hdiffer ?_⟩ w hw
    exact congrArg (Value.field · key) hsame

-- ================================================================ keys

/-- The keys of the shares in the order of their first use. -/
def keysOf (shares : List Share) : List String := allKeys (shares.map Share.entries)

theorem mem_keysOf {key : String} :
    key ∈ keysOf shares ↔ ∃ s ∈ shares, key ∈ Fields.keys s.entries := by
  unfold keysOf allKeys
  rw [List.mem_eraseDups, List.flatMap_map, List.mem_flatMap]

/-- Below a key that no share has there is nothing. -/
theorem below_eq_nil {key : String} (h : key ∉ keysOf shares) : below shares key = [] := by
  rw [below_eq, List.map_eq_nil_iff, List.filter_eq_nil_iff]
  intro s hs hgiven
  refine h (mem_keysOf.2 ⟨s, hs, ?_⟩)
  cases hv : s.value with
  | object fs =>
      cases hlookup : fs.lookup key with
      | none =>
          simp [Share.field, hv, Value.field, Fields.getD, Fields.get?, hlookup, Value.isNull]
            at hgiven
      | some v =>
          obtain ⟨before, after, hfs, -⟩ := List.lookup_eq_some_iff.1 hlookup
          rw [Share.entries, hv]
          simp [Value.entries, Value.fields?, Fields.keys, hfs]
  | _ => simp [Share.field, hv, Value.field, Value.isNull] at hgiven

end Depot.Merge
