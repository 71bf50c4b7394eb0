/-
What a merge comes to, for shares without custom strategies. Where every
share is a mapping the merge goes on key by key; anywhere else one strategy
settles the path, or it is dropped (`settleByStrategy_gives`). `Merges` is
this as a relation: a tree over the paths, with the value and the notes that
each node hands up. `mergeValues_gives` says that a merge follows it from
any path and `Root` that a whole merge is its root, so that what holds of
every merge is proved by induction on `Merges`, without ledgers, faults or
fuel.

Whether a merger traces, and what else it does with a merged configuration,
has no part in that: all mergers with one default strategy follow the same
tree (`Merger.Uses`).
-/
import Depot.Proofs.Merge.Settling

namespace Depot.Merge

variable {shares : List Share} {path : String} {default : Strategy} {m : Merger}

-- ============================================================= joined

/-- The shares are mappings. -/
def Mapped (shares : List Share) : Prop := ∀ s ∈ shares, s.value.fields?.isSome = true

/-- What stands under a key of joined mappings: nothing, the only value, or
what came of merging several values. -/
def joinedAt (present : List Share) (merged : Value) : Option Value :=
  match present with
  | [] => none
  | [s] => some s.value
  | _ => standing merged

/-- The entries of joined mappings. -/
def joined (shares : List Share) (value : String → Value) : Fields :=
  (keysOf shares).filterMap fun key => (joinedAt (below shares key) (value key)).map (key, ·)

/-- Entries made for some keys are found under those keys. -/
theorem get?_filterMap (f : String → Option Value) (keys : List String) (key : String) :
    Fields.get? (keys.filterMap fun k => (f k).map (k, ·)) key
      = if key ∈ keys then f key else none := by
  induction keys with
  | nil => rfl
  | cons k keys ih =>
      have hcons : Fields.get? ((k :: keys).filterMap fun k => (f k).map (k, ·)) key
          = if key = k then (f k).or (Fields.get? (keys.filterMap fun k => (f k).map (k, ·)) key)
            else Fields.get? (keys.filterMap fun k => (f k).map (k, ·)) key := by
        rw [List.filterMap_cons]
        cases f k with
        | none => simp
        | some v =>
            show List.lookup key ((k, v) :: _) = _
            rw [List.lookup_cons]
            by_cases hk : key = k
            · simp [hk]
            · rw [beq_false_of_ne hk, if_neg hk]
              rfl
      rw [hcons, ih]
      by_cases hk : key = k
      · subst hk
        rw [if_pos rfl, if_pos List.mem_cons_self]
        cases hf : f key with
        | none => simp
        | some v => rfl
      · simp [hk]

/-- What joined mappings have under a key. -/
theorem get?_joined (shares : List Share) (value : String → Value) (key : String) :
    Fields.get? (joined shares value) key = joinedAt (below shares key) (value key) := by
  unfold joined
  rw [get?_filterMap fun key => joinedAt (below shares key) (value key)]
  split
  · rfl
  · next hkey =>
      rw [below_eq_nil hkey]
      rfl

/-- An entry of the joined mapping is what the shares below its key come to. -/
theorem mem_joined {value : String → Value} {e : String × Value}
    (h : e ∈ joined shares value) : joinedAt (below shares e.1) (value e.1) = some e.2 := by
  obtain ⟨key, -, hat⟩ := List.mem_filterMap.1 h
  obtain ⟨w, hw, rfl⟩ := Option.map_eq_some_iff.1 hat
  exact hw

/-- Several values at a key are merged. -/
theorem joinedAt_of_several {present : List Share} (h : 1 < present.length) {v : Value}
    (hstands : v ≠ .null) : joinedAt present v = some v := by
  match present with
  | [] => simp at h
  | [s] => simp at h
  | s :: t :: rest => exact standing_of_ne_null hstands

/-- Something stands under a key if some share has it, unless nothing comes
of several. -/
theorem isSome_joinedAt {present : List Share} {v : Value}
    (hstands : 1 < present.length → v ≠ .null) :
    (joinedAt present v).isSome = true ↔ present ≠ [] := by
  match present with
  | [] => simp [joinedAt]
  | [s] => simp [joinedAt]
  | s :: t :: rest =>
      rw [joinedAt_of_several (by simp) (hstands (by simp))]
      simp

/-- What joining mappings notes: whatever the keys with several values
note. -/
def joinedNotes (shares : List Share) (notes : String → Ledger) : Ledger :=
  .concat ((keysOf shares).map fun key => if 1 < (below shares key).length then notes key else {})

/-- The shares at a path merge to a value, with some notes. -/
inductive Merges (default : Strategy) : String → List Share → Value → Ledger → Prop where
  | settled {path : String} {shares : List Share} {v : Value} {notes : Ledger}
      (mixed : ¬ Mapped shares) (settles : Settles default path shares v notes) :
      Merges default path shares v notes
  | dropped {path : String} {shares : List Share} {v : Value} {notes : Ledger}
      (mixed : ¬ Mapped shares) (drops : Drops shares v notes) :
      Merges default path shares v notes
  | joined {path : String} {shares : List Share} (value : String → Value)
      (notes : String → Ledger) (mapped : Mapped shares)
      (several : ∀ key, 1 < (below shares key).length →
        Merges default (pathBelow path key) (below shares key) (value key) (notes key)) :
      Merges default path shares (.object (joined shares value)) (joinedNotes shares notes)

/-- Something comes of shares that can be written. -/
theorem Merges.ne_null {v : Value} {notes : Ledger} (h : Merges default path shares v notes)
    (hwritable : Writable shares) : v ≠ .null := by
  cases h with
  | settled mixed settles => exact settles.stands
  | dropped mixed drops => exact absurd hwritable drops.unwritable
  | joined value notes mapped several => exact Value.noConfusion

/-- A key with several values is among the keys of the shares. -/
theorem mem_keysOf_of_below {key : String} (h : 1 < (below shares key).length) :
    key ∈ keysOf shares := by
  by_contra hkey
  rw [below_eq_nil hkey] at h
  cases h

/-- Joining mappings is clear where every key with several values is. -/
theorem clear_joinedNotes {notes : String → Ledger} : (joinedNotes shares notes).Clear
    ↔ ∀ key, 1 < (below shares key).length → (notes key).Clear := by
  rw [joinedNotes, Ledger.clear_concat_iff]
  constructor
  · intro h key hlong
    have hkey := h _ (List.mem_map_of_mem (mem_keysOf_of_below hlong))
    rwa [if_pos hlong] at hkey
  · intro h l hl
    obtain ⟨key, -, rfl⟩ := List.mem_map.1 hl
    split
    · next hlong => exact h key hlong
    · exact fun c hc => by cases hc

/-- A part of what joining mappings notes was noted under a key with
several values. -/
theorem exists_of_mem_joinedNotes {notes : String → Ledger} {β : Type} {part : Ledger → List β}
    (hempty : part {} = []) {x : β}
    (h : x ∈ (keysOf shares).flatMap fun key =>
      part (if 1 < (below shares key).length then notes key else {})) :
    ∃ key, 1 < (below shares key).length ∧ x ∈ part (notes key) := by
  obtain ⟨key, -, hx⟩ := List.mem_flatMap.1 h
  split at hx
  · next hlong => exact ⟨key, hlong, hx⟩
  · rw [hempty] at hx
    cases hx

/-- A conflict that joining mappings notes was noted under a key with several
values. -/
theorem mem_conflicts_joinedNotes {notes : String → Ledger} {c : Conflict}
    (h : c ∈ (joinedNotes shares notes).conflicts) :
    ∃ key, 1 < (below shares key).length ∧ c ∈ (notes key).conflicts := by
  rw [joinedNotes, Ledger.conflicts_concat, List.flatMap_map] at h
  exact exists_of_mem_joinedNotes rfl h

/-- What joining mappings traces was traced under a key with several
values. -/
theorem mem_traces_joinedNotes {notes : String → Ledger} {t : Trace}
    (h : t ∈ (joinedNotes shares notes).traces) :
    ∃ key, 1 < (below shares key).length ∧ t ∈ (notes key).traces := by
  rw [joinedNotes, Ledger.traces_concat, List.flatMap_map] at h
  exact exists_of_mem_joinedNotes rfl h

/-- What joining mappings warns of was warned of under a key with several
values. -/
theorem mem_warnings_joinedNotes {notes : String → Ledger} {w : String}
    (h : w ∈ (joinedNotes shares notes).warnings) :
    ∃ key, 1 < (below shares key).length ∧ w ∈ (notes key).warnings := by
  rw [joinedNotes, Ledger.warnings_concat, List.flatMap_map] at h
  exact exists_of_mem_joinedNotes rfl h

/-- Mappings can be read as such, all together. -/
theorem mapM_fields_mapped (h : Mapped shares) :
    (shares.map Share.value).mapM Value.fields? = some (shares.map Share.entries) := by
  induction shares with
  | nil => rfl
  | cons s shares ih =>
      obtain ⟨fs, hfs⟩ := Option.isSome_iff_exists.1 (h s (by simp))
      have hentries : s.entries = fs := by
        unfold Share.entries Value.entries
        rw [hfs]
        rfl
      rw [List.map_cons, List.mapM_cons, hfs, ih fun t ht => h t (by simp [ht]), List.map_cons,
        hentries]
      rfl

/-- Shares that can all be read as mappings are mappings. -/
theorem mapped_of_mapM {objects : List Fields}
    (h : (shares.map Share.value).mapM Value.fields? = some objects) : Mapped shares := by
  induction shares generalizing objects with
  | nil => exact fun s hs => by cases hs
  | cons s shares ih =>
      rw [List.map_cons, List.mapM_cons] at h
      obtain ⟨fs, hfs, hrest⟩ := Option.bind_eq_some_iff.1 h
      obtain ⟨rest, hmapM, -⟩ := Option.bind_eq_some_iff.1 hrest
      rintro t (_ | ⟨_, ht⟩)
      · rw [hfs]
        rfl
      · exact ih hmapM t ht

/-- What a merge key by key does for one key. -/
def mergeKey (mergeOne : List Value → Context → Step Value) (objects : List Fields)
    (ctx : Context) (key : String) : Step (Option Value) :=
  match given objects key with
  | [] => pure none
  | [(v, _)] => pure (some v)
  | present => Step.orDropped (ctx.below key) do
      let below ← Step.ofExcept (ctx.narrow (ctx.below key) (present.map Prod.snd))
      mergeOne (present.map Prod.fst) below

/-- Entries are merged one key after the other. -/
theorem mergeEntries_cons (mergeOne : List Value → Context → Step Value) (objects : List Fields)
    (ctx : Context) (key : String) (keys : List String) :
    Merger.mergeEntries mergeOne objects ctx (key :: keys) = (do
      let here ← mergeKey mergeOne objects ctx key
      let rest ← Merger.mergeEntries mergeOne objects ctx keys
      return (here.map (key, ·)).toList ++ rest) := by
  rw [Merger.mergeEntries]
  unfold mergeKey
  match given objects key with
  | [] => rfl
  | [(v, _)] => rfl
  | _ :: _ :: _ =>
      refine bind_congr fun here => ?_
      cases here with
      | none => rfl
      | some v => rfl

/-- One key gives what the shares below come to, with their notes if there
are several. -/
theorem mergeKey_gives {mergeOne : List Value → Context → Step Value} {key : String} {v : Value}
    {notes : Ledger} (h : 1 < (below shares key).length →
      (Step.orDropped (.str (pathBelow path key)) (mergeOne ((below shares key).map Share.value)
        (context (pathBelow path key) (below shares key)))).Gives (standing v) notes) :
    (mergeKey mergeOne (shares.map Share.entries) (context path shares) key).Gives
      (joinedAt (below shares key) v) (if 1 < (below shares key).length then notes else {}) := by
  have hvalues := given_values shares key
  have hnarrow := narrow_eq path shares key
  unfold mergeKey
  match hbelow : below shares key, hgiven : given (shares.map Share.entries) key with
  | [], [] => exact .pure none
  | [s], [(w, i)] =>
      rw [hbelow, hgiven] at hvalues
      injection hvalues with hvalue
      have hw : w = s.value := hvalue
      rw [hw]
      exact .pure (some s.value)
  | s :: t :: rest, e :: e' :: more =>
      have hlong : 1 < (below shares key).length := by simp [hbelow]
      have hone := h hlong
      rw [if_pos (by simp), ← hbelow]
      rw [hgiven] at hvalues hnarrow
      rw [← hvalues, ← Step.ofExcept_bind hnarrow fun below =>
        mergeOne ((e :: e' :: more).map Prod.fst) below] at hone
      rw [hbelow]
      exact hone
  | [], _ :: _ => rw [hbelow, hgiven] at hvalues; cases hvalues
  | _ :: _, [] => rw [hbelow, hgiven] at hvalues; cases hvalues
  | [_], _ :: _ :: _ => rw [hbelow, hgiven] at hvalues; simp at hvalues
  | _ :: _ :: _, [_] => rw [hbelow, hgiven] at hvalues; simp at hvalues

/-- A merge key by key, once every key with several values is known. -/
theorem mergeEntries_gives {mergeOne : List Value → Context → Step Value}
    {value : String → Value} {notes : String → Ledger} (keys : List String)
    (h : ∀ key, 1 < (below shares key).length →
      (Step.orDropped (.str (pathBelow path key)) (mergeOne ((below shares key).map Share.value)
        (context (pathBelow path key) (below shares key)))).Gives (standing (value key))
          (notes key)) :
    (Merger.mergeEntries mergeOne (shares.map Share.entries) (context path shares) keys).Gives
      (keys.filterMap fun key => (joinedAt (below shares key) (value key)).map (key, ·))
      (.concat (keys.map fun key => if 1 < (below shares key).length then notes key else {})) := by
  induction keys with
  | nil => exact .pure []
  | cons key keys ih =>
      have hkey := mergeKey_gives (h key)
      have hrest := ih.map (f := fun rest =>
        ((joinedAt (below shares key) (value key)).map (key, ·)).toList ++ rest)
      rw [mergeEntries_cons, List.filterMap_cons]
      have hboth := hkey.bind (k := fun here => do
        let rest ← Merger.mergeEntries mergeOne (shares.map Share.entries) (context path shares)
          keys
        return (here.map (key, ·)).toList ++ rest) hrest
      cases hat : joinedAt (below shares key) (value key) with
      | none => rw [hat] at hboth; exact hboth
      | some v => rw [hat] at hboth; exact hboth

-- ============================================================== depth

/-- A field is less deep than its mapping. -/
theorem depth_field (v : Value) (key : String) (h : v.fields?.isSome = true) :
    (v.field key).depth + 1 ≤ v.depth := by
  cases v with
  | object fs =>
      have hentry : ∀ fs : Fields, (Fields.getD fs key).depth ≤ Value.fieldsDepth fs := by
        intro fs
        induction fs with
        | nil => exact Nat.zero_le _
        | cons e fs ih =>
            obtain ⟨k, v⟩ := e
            unfold Fields.getD Fields.get? at ih ⊢
            rw [List.lookup_cons, Value.fieldsDepth]
            cases key == k with
            | true => exact le_max_left _ _
            | false => exact ih.trans (le_max_right _ _)
      exact Nat.succ_le_succ (hentry fs)
  | _ => cases h

/-- The shares below a key are less deep than the mappings they come from. -/
theorem depth_below {n : Nat} (hmapped : Mapped shares) (h : ∀ s ∈ shares, s.value.depth ≤ n + 1)
    (key : String) : ∀ s ∈ below shares key, s.value.depth ≤ n := by
  intro s hs
  obtain ⟨t, ht, rfl⟩ := List.mem_map.1 (List.mem_filter.1 hs).1
  have hfield := depth_field t.value key (hmapped t ht)
  have htotal := h t ht
  show (t.value.field key).depth ≤ n
  omega

/-- The shares at a path merge to a value with some notes, and that is what
any merger comes to there that has the default. -/
def Follows (default : Strategy) (n : Nat) (path : String) (shares : List Share) (v : Value)
    (notes : Ledger) : Prop :=
  Merges default path shares v notes ∧ ∀ m : Merger, m.Uses default →
    (Step.orDropped (.str path) (m.mergeValues n (shares.map Share.value)
      (context path shares))).Gives (standing v) (m.record notes)

/-- Joining mappings, if there is fuel for what lies below. -/
theorem joined_gives (default : Strategy) (path : String) {n : Nat} (hmapped : Mapped shares)
    (hbelow : ∀ key, 1 < (below shares key).length → ∃ v notes,
      Follows default n (pathBelow path key) (below shares key) v notes) :
    ∃ fs notes, Merges default path shares (.object fs) notes
      ∧ ∀ m : Merger, m.Uses default →
        (Merger.mergeEntries (m.mergeValues n) (shares.map Share.entries) (context path shares)
          (allKeys (shares.map Share.entries))).Gives fs (m.record notes) := by
  have hchoice : ∀ key, ∃ v notes, 1 < (below shares key).length →
      Follows default n (pathBelow path key) (below shares key) v notes := by
    intro key
    by_cases hlong : 1 < (below shares key).length
    · obtain ⟨v, notes, h⟩ := hbelow key hlong
      exact ⟨v, notes, fun _ => h⟩
    · exact ⟨.null, {}, fun h => absurd h hlong⟩
  choose value notes h using hchoice
  refine ⟨_, _, .joined value notes hmapped fun key hlong => (h key hlong).1, fun m huses => ?_⟩
  have hgives := mergeEntries_gives (keysOf shares) fun key hlong => (h key hlong).2 m huses
  refine hgives.congr ?_
  rw [joinedNotes, Merger.record_concat, List.map_map]
  refine congrArg Ledger.concat (List.map_congr_left fun key _ => ?_)
  show (if _ then _ else _) = m.record (if _ then _ else _)
  split
  · rfl
  · rw [Merger.record_empty]

theorem Merger.Uses.find (h : m.Uses default) (path : String) : m.customs.find path = none := by
  rw [h.customs]
  rfl

/-- Where the shares are not all mappings the path is settled or dropped. -/
theorem settled_gives (default : Strategy) {n : Nat} (hgiven : Given shares) (hne : shares ≠ [])
    (hmixed : ¬ Mapped shares) : ∃ v notes, Follows default n path shares v notes := by
  obtain ⟨v, notes, hends, hgives⟩ := settleByStrategy_gives default path hgiven hne
  have hnone : (shares.map Share.value).mapM Value.fields? = none :=
    Option.eq_none_iff_forall_ne_some.2 fun objects h => hmixed (mapped_of_mapM h)
  refine ⟨v, notes, hends.elim (.settled hmixed) (.dropped hmixed), fun m huses => ?_⟩
  unfold Merger.mergeValues
  rw [huses.find, hnone]
  cases n with
  | zero => exact hgives m huses
  | succ n => exact hgives m huses

/-- A merge follows `Merges` from any path, if there is fuel for the depth of
the values. -/
theorem mergeValues_gives (default : Strategy) {n : Nat} (hgiven : Given shares)
    (hne : shares ≠ []) (hdepth : ∀ s ∈ shares, s.value.depth ≤ n) :
    ∃ v notes, Follows default n path shares v notes := by
  induction n generalizing path shares with
  | zero =>
      have hmixed : ¬ Mapped shares := by
        intro hmapped
        obtain ⟨s, hs⟩ := List.exists_mem_of_ne_nil shares hne
        have hlevel := depth_field s.value "" (hmapped s hs)
        have hnone := hdepth s hs
        omega
      exact settled_gives default hgiven hne hmixed
  | succ n ih =>
      by_cases hmapped : Mapped shares
      · obtain ⟨fs, notes, hmerges, hgives⟩ := joined_gives default path hmapped
          fun key hlong => ih (given_below shares key)
            (List.ne_nil_of_length_pos (Nat.zero_lt_of_lt hlong))
            (depth_below hmapped hdepth key)
        refine ⟨.object fs, notes, hmerges, fun m huses => ?_⟩
        unfold Merger.mergeValues
        rw [huses.find, mapM_fields_mapped hmapped]
        exact .orDropped _ (hgives m huses).map
      · exact settled_gives default hgiven hne hmapped

-- ======================================================== whole merges

/-- Mappings are taken as they are. -/
theorem asMappings_objects (objects : List Fields) :
    asMappings (objects.map .object) = .ok objects := by
  have hnames : ∀ fs : Fields, (fs.map fun e => Value.str e.1).find? (fun key => !key.canName)
      = none := by
    intro fs
    rw [List.find?_eq_none]
    intro v hv
    obtain ⟨e, -, rfl⟩ := List.mem_map.1 hv
    simp [Value.canName]
  unfold asMappings
  rw [flatMapM_ok (g := fun v => v.entries.map fun e => .str e.1)]
  · simp only [bind, Except.bind]
    split
    · next hempty =>
        -- without any entry every mapping is the empty one
        have hnone : ∀ fs ∈ objects, fs = [] := by
          intro fs hfs
          rw [List.isEmpty_iff, List.flatMap_eq_nil_iff] at hempty
          exact List.map_eq_nil_iff.1 (hempty (.object fs) (List.mem_map_of_mem hfs))
        refine congrArg Except.ok ?_
        rw [List.map_map]
        calc objects.map (fun _ => []) = objects.map id :=
              List.map_congr_left fun fs hfs => (hnone fs hfs).symm
          _ = objects := List.map_id objects
    · exact Value.mapM_entriesOf "get" objects
  · intro v hv
    obtain ⟨fs, -, rfl⟩ := List.mem_map.1 hv
    simp only [Value.iterate, bind, Except.bind, hnames]
    rfl

/-- The values of mappings are their entries again. -/
theorem map_value_mapped (h : Mapped shares) :
    shares.map Share.value = (shares.map Share.entries).map .object := by
  rw [List.map_map]
  refine List.map_congr_left fun s hs => ?_
  have hs' := h s hs
  unfold Function.comp Share.entries
  cases hv : s.value with
  | object fs => rfl
  | _ => rw [hv] at hs'; cases hs'

/-- A number is at most the greatest. -/
theorem le_foldl_max {ns : List Nat} {n b : Nat} (h : n ∈ ns ∨ n ≤ b) : n ≤ ns.foldl max b := by
  induction ns generalizing b with
  | nil => exact h.resolve_left (by simp)
  | cons m ns ih =>
      refine ih ?_
      rcases h with (_ | ⟨_, hn⟩) | hb
      · exact .inr (le_max_right _ _)
      · exact .inl hn
      · exact .inr (hb.trans (le_max_left _ _))

/-- A whole merge follows `Merges`. -/
theorem mergeAll_gives (default : Strategy) (hmapped : Mapped shares) (path : String) :
    ∃ fs notes, Merges default path shares (.object fs) notes ∧ ∀ m : Merger, m.Uses default →
      (m.mergeAll (shares.map Share.value) (context path shares)).Gives fs (m.record notes) := by
  let n := ((shares.map Share.value).map Value.depth).foldl max 0
  have hdepth : ∀ s ∈ shares, s.value.depth ≤ n + 1 := by
    intro s hs
    have hle : s.value.depth ≤ n :=
      le_foldl_max (.inl (List.mem_map_of_mem (List.mem_map_of_mem hs)))
    omega
  have hobjects : asMappings (shares.map Share.value) = .ok (shares.map Share.entries) := by
    rw [map_value_mapped hmapped, asMappings_objects]
  obtain ⟨fs, notes, hmerges, hgives⟩ := joined_gives default path (n := n) hmapped
    fun key hlong => mergeValues_gives default (given_below shares key)
      (List.ne_nil_of_length_pos (Nat.zero_lt_of_lt hlong)) (depth_below hmapped hdepth key)
  exact ⟨fs, notes, hmerges, fun m huses => .bindSilent (.ofExcept hobjects) (hgives m huses)⟩

/-- What a list of sources or priorities that fits some configurations is:
missing, or one for each. -/
def Fits {α : Type} (f : α → Value) (count : Nat) (given : List Value) : Prop :=
  given = [] ∨ ∃ xs : List α, xs.length = count ∧ given = xs.map f

/-- Lists of sources and priorities are there in any case. -/
theorem exists_of_fits {α : Type} {f : α → Value} {count : Nat} {offered : List Value}
    (h : Fits f count offered) (fallback : List α) (hlength : fallback.length = count) :
    ∃ xs : List α, xs.length = count
      ∧ (if offered.isEmpty then fallback.map f else offered) = xs.map f := by
  rcases h with rfl | ⟨xs, hxs, rfl⟩
  · exact ⟨fallback, hlength, rfl⟩
  · refine ⟨xs, hxs, ?_⟩
    cases xs with
    | nil =>
        rw [List.length_eq_zero_iff.1 (hlength.trans hxs.symm)]
        rfl
    | cons x xs => rfl

/-- Some configurations with their sources and priorities are some
shares. -/
structure Shared (configs : List Fields) (sources priorities : List Value)
    (shares : List Share) : Prop where
  mapped : Mapped shares
  values : shares.map Share.value = configs.map .object
  origins : Merger.rootContext configs.length sources priorities = context "config" shares

/-- Configurations and priorities that can be written are writable shares. -/
theorem Shared.writable {configs : List Fields} {sources priorities : List Value}
    (h : Shared configs sources priorities shares)
    (hconfigs : ∀ c ∈ configs, (Value.object c).isWritable = true)
    (hpriorities : ∀ p ∈ priorities, p.isWritable = true) : Writable shares := by
  have hranks : (if priorities.isEmpty then List.replicate configs.length (.int defaultPriority)
      else priorities) = shares.map fun s => .int s.rank := congrArg Context.priorities h.origins
  constructor
  · have hall : ∀ v ∈ shares.map Share.value, v.isWritable = true := by
      rw [h.values]
      exact List.forall_mem_map.2 hconfigs
    exact List.forall_mem_map.1 hall
  · intro _ s hs
    have hrank := List.mem_map_of_mem (f := fun s : Share => Value.int s.rank) hs
    rw [← hranks] at hrank
    split at hrank
    · injection List.eq_of_mem_replicate hrank with hdefault
      rw [hdefault]
      decide
    · exact hpriorities _ hrank

/-- Lists that fit make shares of the configurations. -/
theorem exists_shared {configs : List Fields} {sources priorities : List Value}
    (hsources : Fits .str configs.length sources)
    (hpriorities : Fits .int configs.length priorities) :
    ∃ shares, Shared configs sources priorities shares := by
  obtain ⟨names, hnames, hsource⟩ := exists_of_fits hsources
    ((List.range configs.length).map fun i => s!"source-{i}") (by simp)
  obtain ⟨ranks, hranks, hpriority⟩ := exists_of_fits hpriorities
    (List.replicate configs.length defaultPriority) (by simp)
  let shares : List Share := (configs.zip (names.zip ranks)).map
    fun e => ⟨.object e.1, e.2.1, e.2.2⟩
  have hlength : (names.zip ranks).length = configs.length := by simp [hnames, hranks]
  have hvalues : shares.map Share.value = configs.map .object := by
    calc shares.map Share.value
        = ((configs.zip (names.zip ranks)).map Prod.fst).map .object := by
          rw [List.map_map, List.map_map]
          rfl
      _ = configs.map .object := by rw [List.map_fst_zip hlength.ge]
  have hrest : (configs.zip (names.zip ranks)).map Prod.snd = names.zip ranks :=
    List.map_snd_zip hlength.le
  have hsourceNames : shares.map (fun s => Value.str s.source) = names.map .str := by
    calc shares.map (fun s => Value.str s.source)
        = (((configs.zip (names.zip ranks)).map Prod.snd).map Prod.fst).map .str := by
          rw [List.map_map, List.map_map, List.map_map]
          rfl
      _ = names.map .str := by rw [hrest, List.map_fst_zip (hnames.trans hranks.symm).le]
  have hrankValues : shares.map (fun s => Value.int s.rank) = ranks.map .int := by
    calc shares.map (fun s => Value.int s.rank)
        = (((configs.zip (names.zip ranks)).map Prod.snd).map Prod.snd).map .int := by
          rw [List.map_map, List.map_map, List.map_map]
          rfl
      _ = ranks.map .int := by rw [hrest, List.map_snd_zip (hranks.trans hnames.symm).le]
  refine ⟨shares, ?_, hvalues, ?_⟩
  · intro s hs
    obtain ⟨e, -, rfl⟩ := List.mem_map.1 hs
    rfl
  · rw [context, hsourceNames, hrankValues, ← hsource, ← hpriority, List.map_map,
      List.map_replicate]
    rfl

/-- A whole merge as the root of `Merges`. -/
structure Root (m : Merger) (configs : List Fields) (sources priorities : List Value)
    (shares : List Share) (fs : Fields) (notes : Ledger) : Prop
    extends Shared configs sources priorities shares where
  merges : Merges m.default "config" shares (.object fs) notes
  gives : (m.mergeAll (configs.map .object) (context "config" shares)).Gives fs (m.record notes)

/-- The shares of some configurations have a root, the same for every merger
with one default. -/
theorem Shared.root {configs : List Fields} {sources priorities : List Value}
    (h : Shared configs sources priorities shares) (default : Strategy) :
    ∃ fs notes, ∀ m : Merger, m.Uses default →
      Root m configs sources priorities shares fs notes := by
  obtain ⟨fs, notes, hmerges, hgives⟩ := mergeAll_gives default h.mapped "config"
  rw [h.values] at hgives
  exact ⟨fs, notes, fun m huses => ⟨h, huses.default.symm ▸ hmerges, hgives m huses⟩⟩

namespace Root

variable {configs : List Fields} {sources priorities : List Value} {fs : Fields} {notes : Ledger}

/-- What a merge finds once its paths are settled. -/
def checked (m : Merger) (fs : Fields) (notes : Ledger) : Except Fault (Merged × Nat) := do
  let conflicts := notes.conflicts ++ (← incompatibilities (.object fs) m.rules)
  let findings ← m.checks.check (.object fs)
  return (⟨fs, conflicts.filter Conflict.resolvable, conflicts.filter fun c => !c.resolvable,
    findings.errors, notes.warnings ++ findings.warnings,
    if m.tracing then some notes.traces else none⟩, conflicts.length)

/-- A run is its root, and then the checks of the merged configuration. -/
theorem run_eq (h : Root m configs sources priorities shares fs notes) :
    m.mergeConfigs (configs.map .object) sources priorities
      = match checked m fs notes with
        | .error fault => ⟨.error fault, if m.tracing then notes.traces else [], []⟩
        | .ok (result, count) =>
            ⟨if m.strict && !result.success then .error (result.failure (configs.map .object))
              else .ok result, if m.tracing then notes.traces else [],
              [⟨.debug, "configuration_merged",
                [("sources", .list (context "config" shares).sources), ("conflicts", .int count),
                  ("errors", .int result.errors.length),
                  ("warnings", .int result.warnings.length)]⟩]⟩ := by
  have hrun : (m.mergeAll (configs.map .object) (context "config" shares)).run {}
      = (.ok fs, m.record notes) := h.gives {}
  unfold Merger.mergeConfigs Merger.conclude
  rw [List.length_map, h.origins]
  dsimp only
  rw [hrun]
  unfold checked Merger.record
  cases m.tracing with
  | true => rfl
  | false => rfl

/-- A run leaves the traces of its root, if it traces. -/
theorem traces_eq (h : Root m configs sources priorities shares fs notes) :
    (m.mergeConfigs (configs.map .object) sources priorities).traces
      = if m.tracing then notes.traces else [] := by
  rw [h.run_eq]
  cases checked m fs notes with
  | error fault => rfl
  | ok result => rfl

/-- What passes the checks is the merged mapping, and a success only without
open conflicts. -/
theorem checked_ok {found : Merged × Nat} (h : checked m fs notes = .ok found) :
    found.1.config = fs ∧ (found.1.success = true → notes.Clear) := by
  obtain ⟨clashes, -, h⟩ := bind_eq_ok.1 h
  obtain ⟨findings, -, h⟩ := bind_eq_ok.1 h
  cases h
  refine ⟨rfl, fun hsuccess c hc => ?_⟩
  have hempty := List.isEmpty_iff.1 (Bool.and_eq_true_iff.1 hsuccess).1
  have hkept := List.filter_eq_nil_iff.1 hempty c (List.mem_append_left clashes hc)
  simpa using hkept

/-- A merge that returns has passed its rules and checks, and a strict one
has succeeded. -/
theorem checked_of_ok (h : Root m configs sources priorities shares fs notes) {merged : Merged}
    (hok : (m.mergeConfigs (configs.map .object) sources priorities).result = .ok merged) :
    ∃ count, checked m fs notes = .ok (merged, count)
      ∧ (m.strict = true → merged.success = true) := by
  rw [h.run_eq] at hok
  cases hchecked : checked m fs notes with
  | error fault => rw [hchecked] at hok; cases hok
  | ok found =>
      rw [hchecked] at hok
      have houtcome : (if m.strict && !found.1.success then
          .error (found.1.failure (configs.map .object)) else .ok found.1) = Except.ok merged := hok
      by_cases hrefused : (m.strict && !found.1.success) = true
      · rw [if_pos hrefused] at houtcome
        cases houtcome
      · rw [if_neg hrefused] at houtcome
        cases houtcome
        exact ⟨found.2, rfl, fun hstrict => by simpa [hstrict] using hrefused⟩

/-- A merge that returns has the configuration of its root, and a strict one
has nothing unresolvable in it. -/
theorem of_ok (h : Root m configs sources priorities shares fs notes) {merged : Merged}
    (hok : (m.mergeConfigs (configs.map .object) sources priorities).result = .ok merged) :
    merged.config = fs ∧ (m.strict = true → notes.Clear) := by
  obtain ⟨count, hchecked, hstrict⟩ := h.checked_of_ok hok
  obtain ⟨hconfig, hclear⟩ := checked_ok hchecked
  exact ⟨hconfig, fun h => hclear (hstrict h)⟩

/-- The warnings of a merge that returns are those of its paths and then
those of its checks. -/
theorem warnings_of_ok (h : Root m configs sources priorities shares fs notes) {merged : Merged}
    (hok : (m.mergeConfigs (configs.map .object) sources priorities).result = .ok merged) :
    ∃ findings, m.checks.check (.object fs) = .ok findings
      ∧ merged.warnings = notes.warnings ++ findings.warnings := by
  obtain ⟨count, hchecked, -⟩ := h.checked_of_ok hok
  obtain ⟨clashes, -, hchecked⟩ := bind_eq_ok.1 hchecked
  obtain ⟨findings, hfindings, hchecked⟩ := bind_eq_ok.1 hchecked
  cases hchecked
  exact ⟨findings, hfindings, rfl⟩

end Root

-- ============================================================= results

/-- The configuration that a run returns. -/
def Run.config? (run : Run) : Option Fields := run.result.toOption.map Merged.config

/-- The kind of the fault that ends a run: none for a fault that is no error of
the library. -/
def Run.failure? (run : Run) : Option (Option ErrorKind) :=
  match run.result with
  | .error fault => some fault.kind?
  | .ok _ => none

/-- Two configurations that share a key. -/
def sharingKey (v w : Value) : List Value := [.object [("a", v)], .object [("a", w)]]

end Depot.Merge
