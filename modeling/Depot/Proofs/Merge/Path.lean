/-
What a merge has at the end of a path of keys. With each key the shares,
their sources and their ranks are picked anew: those that have nothing
there drop out, and the others move up. So a path is followed on shares
(`sharesAt`), where value, source and rank stay together, and what a merge
has at its end is what the shares there come to (`Merges.comesTo`). That
these are the values of the configurations at the path with the priorities
they were given is then a matter of walking down one configuration
(`sharesAt_eq`), and no position is counted on the way.

What is said of whole merges speaks of the configurations and priorities
alone: where priority is the strategy for a path, the merged configuration
has there what the configuration of the highest priority has, of several
the earliest (`Merger.highest_priority_wins_at_path`).
-/
import Depot.Proofs.Merge.Fitting

namespace Depot

/-- What a value has at the end of a path of keys; null if the path leads
nowhere. -/
def Value.atKeys (v : Value) (keys : List String) : Value := keys.foldl Value.field v

theorem Value.atKeys_concat (v : Value) (keys : List String) (key : String) :
    v.atKeys (keys ++ [key]) = (v.atKeys keys).field key := List.foldl_concat ..

theorem Value.null_atKeys (keys : List String) : Value.null.atKeys keys = .null := by
  induction keys with
  | nil => rfl
  | cons key keys ih => exact ih

namespace Merge

variable {shares : List Share} {path : String} {default : Strategy} {v : Value}

-- =============================================================== shares

/-- The share at the end of a path of keys. -/
def Share.atKeys (s : Share) (keys : List String) : Share := { s with value := s.value.atKeys keys }

/-- The shares at the end of a path of keys. -/
def sharesAt (shares : List Share) (keys : List String) : List Share := keys.foldl below shares

/-- The path that leads on over some keys. -/
def pathAt (path : String) (keys : List String) : String := keys.foldl pathBelow path

theorem sharesAt_concat (shares : List Share) (keys : List String) (key : String) :
    sharesAt shares (keys ++ [key]) = below (sharesAt shares keys) key := List.foldl_concat ..

/-- Dropping items early changes nothing if they would be dropped later. -/
theorem filter_map_filter {α β : Type} {f : α → β} {p : α → Bool} {q : β → Bool} (xs : List α)
    (h : ∀ x, q (f x) = true → p x = true) :
    ((xs.filter p).map f).filter q = (xs.map f).filter q := by
  rw [List.filter_map, List.filter_filter, List.filter_map]
  refine congrArg _ (List.filter_congr fun x _ => ?_)
  rw [Bool.eq_iff_iff, Bool.and_eq_true]
  exact ⟨fun hx => hx.1, fun hx => ⟨hx, h x hx⟩⟩

/-- Shares that drop out on the way have nothing at the end of it. -/
theorem sharesAt_eq (h : Given shares) (keys : List String) :
    sharesAt shares keys
      = (shares.map fun s => s.atKeys keys).filter fun s => !s.value.isNull := by
  induction keys generalizing shares with
  | nil =>
      have hall : ∀ s ∈ shares, (!s.value.isNull) = true := by
        intro s hs
        have hs' := h s hs
        cases hv : s.value with
        | null => exact absurd hv hs'
        | _ => rfl
      have hmap : (shares.map fun s => s.atKeys []) = shares := List.map_id shares
      rw [hmap, List.filter_eq_self.2 hall]
      rfl
  | cons key keys ih =>
      have hdropped : ∀ s : Share, (!(s.atKeys keys).value.isNull) = true →
          (!s.value.isNull) = true := by
        intro s hs
        cases hv : s.value with
        | null =>
            have hnull : (s.atKeys keys).value = .null := by
              show s.value.atKeys keys = _
              rw [hv, Value.null_atKeys]
            rw [hnull] at hs
            cases hs
        | _ => rfl
      have hmap : (shares.map fun s => s.atKeys (key :: keys))
          = (shares.map fun s => s.field key).map fun s => s.atKeys keys := by
        rw [List.map_map]
        rfl
      rw [hmap]
      exact (ih (given_below shares key)).trans (filter_map_filter
        (f := fun s : Share => s.atKeys keys) (q := fun s : Share => !s.value.isNull) _ hdropped)

/-- What writable shares have at the end of a path is writable. -/
theorem Writable.at (h : Writable shares) (keys : List String) :
    Writable (sharesAt shares keys) := by
  induction keys generalizing shares with
  | nil => exact h
  | cons key keys ih => exact ih (h.below key)

theorem given_mapped (h : Mapped shares) : Given shares := by
  intro s hs hnull
  have hs' := h s hs
  rw [hnull] at hs'
  cases hs'

-- =========================================================== what comes

/-- What the shares at a path come to: null if there are none, the value of
the only one, or what several merge to. -/
def ComesTo (default : Strategy) (path : String) : List Share → Value → Prop
  | [], v => v = .null
  | [s], v => v = s.value
  | s :: t :: rest, v => ∃ notes, Merges default path (s :: t :: rest) v notes

/-- Mappings that merge have under each key what the shares below come
to. -/
theorem Merges.comesTo_below {notes : Ledger} (h : Merges default path shares v notes)
    (hmapped : Mapped shares) (key : String) :
    ComesTo default (pathBelow path key) (Merge.below shares key) (v.field key) := by
  cases h with
  | settled mixed settles => exact absurd hmapped mixed
  | dropped mixed drops => exact absurd hmapped mixed
  | joined value notes mapped several =>
      have hfield : (Value.object (Merge.joined shares value)).field key
          = (joinedAt (Merge.below shares key) (value key)).getD .null := by
        rw [← get?_joined]
        rfl
      have hseveral := several key
      rw [hfield]
      match hbelow : Merge.below shares key with
      | [] => rfl
      | [s] => rfl
      | s :: t :: rest =>
          rw [hbelow] at hseveral
          refine ⟨notes key, ?_⟩
          show Merges _ _ _ ((standing (value key)).getD .null) _
          rw [getD_standing]
          exact hseveral (by simp)

/-- Where mappings come to a value, the shares below a key come to what it
has there. -/
theorem ComesTo.below (h : ComesTo default path shares v) (hmapped : Mapped shares)
    (key : String) :
    ComesTo default (pathBelow path key) (Merge.below shares key) (v.field key) := by
  match shares with
  | [] =>
      have hv : v = .null := h
      rw [hv]
      rfl
  | [s] =>
      have hv : v = s.value := h
      have hkept : Merge.below [s] key
          = bif !(s.field key).value.isNull then [s.field key] else [] := List.filter_singleton
      rw [hv, hkept]
      cases hnull : (s.field key).value with
      | null => exact hnull
      | _ => exact rfl
  | s :: t :: rest =>
      obtain ⟨notes, hmerges⟩ := h
      exact hmerges.comesTo_below hmapped key

/-- What shares come to, followed along a path that leads over mappings. -/
theorem ComesTo.atKeys (h : ComesTo default path shares v) (keys : List String)
    (hmapped : ∀ way, way <+: keys → way ≠ keys → Mapped (sharesAt shares way)) :
    ComesTo default (pathAt path keys) (sharesAt shares keys) (v.atKeys keys) := by
  induction keys generalizing path shares v with
  | nil => exact h
  | cons key keys ih =>
      have hhere : Mapped shares := hmapped [] (List.nil_prefix) (List.cons_ne_nil _ _).symm
      refine ih (h.below hhere key) fun way hway hne => ?_
      exact hmapped (key :: way) (List.cons_prefix_cons.2 ⟨rfl, hway⟩)
        fun hsame => hne (List.cons.inj hsame).2

/-- What a merge has at the end of a path that leads over mappings. -/
theorem Merges.comesTo {notes : Ledger} (h : Merges default path shares v notes)
    {keys : List String} (hne : keys ≠ [])
    (hmapped : ∀ way, way <+: keys → way ≠ keys → Mapped (sharesAt shares way)) :
    ComesTo default (pathAt path keys) (sharesAt shares keys) (v.atKeys keys) := by
  obtain ⟨key, rest, rfl⟩ := List.exists_cons_of_ne_nil hne
  have hhere : Mapped shares := hmapped [] (List.nil_prefix) hne.symm
  refine (h.comesTo_below hhere key).atKeys rest fun way hway hrest => ?_
  exact hmapped (key :: way) (List.cons_prefix_cons.2 ⟨rfl, hway⟩)
    fun hsame => hrest (List.cons.inj hsame).2

/-- Where priority is asked for, shares that are not all mappings come to
the earliest of the highest rank, if several of them can be written. -/
theorem ComesTo.leads (h : ComesTo default path shares v) (hne : shares ≠ [])
    (hmixed : ¬ Mapped shares) (hasked : askedFor default path = .priority)
    (hwritable : 1 < shares.length → Writable shares) : Leads shares v := by
  match shares with
  | [] => exact absurd rfl hne
  | [s] => exact ⟨[], s, [], rfl, h, by simp, by simp⟩
  | s :: t :: rest =>
      obtain ⟨notes, hmerges⟩ := h
      cases hmerges with
      | settled mixed settles =>
          have hway : wayFor default path ((s :: t :: rest).map Share.value) = .priority := by
            unfold wayFor
            rw [hasked]
          have hdecides := settles.decides
          rw [hway] at hdecides
          exact hdecides
      | dropped mixed drops => exact absurd (hwritable (by simp)) drops.unwritable
      | joined value notes mapped several => exact absurd mapped hmixed

-- ====================================================== configurations

/-- The values that configurations give at the end of a path. -/
def givenAt (configs : List Fields) (keys : List String) : List Value :=
  (configs.map fun c => (Value.object c).atKeys keys).filter fun v => !v.isNull

/-- The values that configurations give at the end of a path, each with the
priority of its configuration. -/
def offersAt (configs : List Fields) (priorities : List Int) (keys : List String) :
    List (Value × Int) :=
  ((configs.zip priorities).map fun e => ((Value.object e.1).atKeys keys, e.2)).filter
    fun e => !e.1.isNull

/-- A value is given at a path by a configuration that has it there, unless
it is null. -/
theorem mem_givenAt {configs : List Fields} {keys : List String} :
    v ∈ givenAt configs keys
      ↔ v ≠ .null ∧ ∃ c ∈ configs, (Value.object c).atKeys keys = v := by
  have hnull : (!v.isNull) = true ↔ v ≠ .null := by
    cases v with
    | null => simp [Value.isNull]
    | _ => simp [Value.isNull]
  rw [givenAt, List.mem_filter, List.mem_map, hnull, and_comm]

section Shared

variable {configs : List Fields} {sources priorities : List Value}

/-- The shares at a path have the values that the configurations give there. -/
theorem Shared.givenAt_eq (h : Shared configs sources priorities shares) (keys : List String) :
    (sharesAt shares keys).map Share.value = givenAt configs keys := by
  have hvalues : (shares.map fun s => s.atKeys keys).map Share.value
      = configs.map fun c => (Value.object c).atKeys keys := by
    calc (shares.map fun s => s.atKeys keys).map Share.value
        = (shares.map Share.value).map fun v => v.atKeys keys := by
          rw [List.map_map, List.map_map]
          rfl
      _ = configs.map fun c => (Value.object c).atKeys keys := by
          rw [h.values, List.map_map]
          rfl
  calc (sharesAt shares keys).map Share.value
      = ((shares.map fun s => s.atKeys keys).map Share.value).filter fun v => !v.isNull := by
        rw [sharesAt_eq (given_mapped h.mapped), List.filter_map (f := Share.value)]
        rfl
    _ = givenAt configs keys := by rw [hvalues, givenAt]

theorem Shared.mapped_iff (h : Shared configs sources priorities shares) (keys : List String) :
    Mapped (sharesAt shares keys) ↔ ∀ v ∈ givenAt configs keys, v.fields?.isSome = true := by
  rw [← h.givenAt_eq, List.forall_mem_map]
  exact Iff.rfl

/-- Shares have the priorities that are given for their configurations. -/
theorem Shared.ranks {ranks : List Int}
    (h : Shared configs sources (ranks.map .int) shares) (hlength : ranks.length = configs.length) :
    shares.map Share.rank = ranks := by
  have hshares : shares.length = configs.length := by
    simpa using congrArg List.length h.values
  have horigins : (if (ranks.map Value.int).isEmpty then
      List.replicate configs.length (.int defaultPriority) else ranks.map .int)
      = shares.map fun s => Value.int s.rank := congrArg Context.priorities h.origins
  have hints : (ranks.map Value.int) = (shares.map Share.rank).map .int := by
    rw [List.map_map]
    refine Eq.trans ?_ horigins
    split
    · next hempty =>
        have hnil : ranks = [] := by simpa using hempty
        rw [← hlength, hnil]
        rfl
    · rfl
  exact (List.map_injective_iff.2 (fun _ _ hn => Value.int.inj hn) hints).symm

/-- With priorities the shares have the offers made at the path, value and
rank. -/
theorem Shared.offersAt_eq {ranks : List Int}
    (h : Shared configs sources (ranks.map .int) shares) (hlength : ranks.length = configs.length)
    (keys : List String) :
    (sharesAt shares keys).map (fun s => (s.value, s.rank)) = offersAt configs ranks keys := by
  have hzip : shares.map (fun s => (s.value, s.rank))
      = (configs.zip ranks).map fun e => (Value.object e.1, e.2) := by
    calc shares.map (fun s => (s.value, s.rank))
        = (shares.map Share.value).zip (shares.map Share.rank) :=
          List.zip_map'.symm
      _ = (configs.map Value.object).zip (ranks.map id) := by
          rw [h.values, h.ranks hlength, List.map_id]
      _ = (configs.zip ranks).map fun e => (Value.object e.1, e.2) := by
          rw [List.zip_map]
          rfl
  calc (sharesAt shares keys).map (fun s => (s.value, s.rank))
      = ((shares.map fun s => (s.value, s.rank)).map fun e => (e.1.atKeys keys, e.2)).filter
          fun e => !e.1.isNull := by
        rw [sharesAt_eq (given_mapped h.mapped), List.map_map,
          List.filter_map, List.filter_map, List.map_map]
        rfl
    _ = offersAt configs ranks keys := by
        rw [hzip, List.map_map]
        rfl

end Shared

-- ======================================================== whole merges

/-- Where priority is the strategy for a path and mappings lead to it, the
merged configuration has there what the configuration of the highest
priority gives, of several the earliest. For it to choose among several they
have to be such that they can be written, with their priorities; keys are texts,
as in JSON, so nothing else stands in the way of that. -/
theorem Merger.highest_priority_wins_at_path {m : Merger} (hcustoms : m.customs = {})
    {configs : List Fields} {sources : List String} {priorities : List Int}
    (haligned : priorities.length = configs.length) {keys : List String} (hne : keys ≠ [])
    (hpriority : m.strategyFor (pathAt "config" keys) = .priority)
    (hmapped : ∀ way, way <+: keys → way ≠ [] → way ≠ keys →
      ∀ v ∈ givenAt configs way, v.fields?.isSome = true)
    {merged : Merged}
    (hok : (m.mergeConfigs (configs.map .object) (sources.map .str)
      (priorities.map .int)).result = .ok merged)
    (hgiven : offersAt configs priorities keys ≠ [])
    (hwritable : 1 < (offersAt configs priorities keys).length →
      ∀ offer ∈ offersAt configs priorities keys,
        offer.1.isWritable = true ∧ Written.isWritable offer.2 = true)
    (hmixed : ¬ ∀ offer ∈ offersAt configs priorities keys, offer.1.fields?.isSome = true) :
    ∃ before v rank after, offersAt configs priorities keys = before ++ (v, rank) :: after
      ∧ (∀ offer ∈ before, offer.2 < rank) ∧ (∀ offer ∈ after, offer.2 ≤ rank)
      ∧ (Value.object merged.config).atKeys keys = v := by
  obtain ⟨sources', shares, fs, notes, hroot, hok'⟩ := Merger.exists_root_of_ok hcustoms hok
  rw [fitted_of_length 0 haligned] at hroot hok'
  have hshared := hroot.toShared
  have hoffers := hshared.offersAt_eq haligned keys
  have hway : ∀ way, way <+: keys → way ≠ keys → Mapped (sharesAt shares way) := by
    intro way hway hless
    by_cases hnil : way = []
    · rw [hnil]
      exact hshared.mapped
    · exact (hshared.mapped_iff way).2 (hmapped way hway hnil hless)
  have hcomes := hroot.merges.comesTo hne hway
  have hleads : Leads (sharesAt shares keys) ((Value.object fs).atKeys keys) := by
    have hasked : askedFor m.default (pathAt "config" keys) = .priority :=
      (Merger.Uses.strategyFor ⟨hcustoms, rfl⟩ _).symm.trans hpriority
    refine hcomes.leads ?_ ?_ hasked ?_
    · intro hnil
      rw [hnil] at hoffers
      exact hgiven hoffers.symm
    · intro hall
      refine hmixed fun offer hoffer => ?_
      rw [← hoffers] at hoffer
      obtain ⟨s, hs, rfl⟩ := List.mem_map.1 hoffer
      exact hall s hs
    · intro hlong
      rw [← hoffers, List.length_map] at hwritable
      have hall := List.forall_mem_map.1 (hwritable hlong)
      exact ⟨fun s hs => (hall s hs).1, fun _ s hs => (hall s hs).2⟩
  obtain ⟨before, s, after, hsplit, hvalue, hbefore, hafter⟩ := hleads
  refine ⟨before.map fun s => (s.value, s.rank), s.value, s.rank,
    after.map fun s => (s.value, s.rank), ?_, ?_, ?_, ?_⟩
  · rw [← hoffers, hsplit, List.map_append, List.map_cons]
  · exact List.forall_mem_map.2 hbefore
  · exact List.forall_mem_map.2 hafter
  · rw [(hroot.of_ok hok').1]
    exact hvalue

/-- Networks with sizes; the source of the highest priority has none. -/
def sizedNetworks : List Fields :=
  [[("net", .object [("sku", .str "small"), ("zone", .str "a")])], [("tier", .int 3)],
    [("net", .object [("sku", .str "large")])], [("net", .object [("sku", .list [])])]]

theorem size_of_network_is_highest : ∃ merged : Merged,
    (({} : Merger).mergeConfigs (sizedNetworks.map .object) []
      [.int 1, .int 50, .int 20, .int 20]).result = .ok merged
    ∧ (Value.object merged.config).atKeys ["net", "sku"] = .str "large" := by
  have hpriority : ({} : Merger).strategyFor (pathAt "config" ["net", "sku"]) = .priority := by
    decide
  have hoffers : offersAt sizedNetworks [1, 50, 20, 20] ["net", "sku"]
      = [(.str "small", 1), (.str "large", 20), (.list [], 20)] := rfl
  have hmapped : ∀ way, way <+: ["net", "sku"] → way ≠ [] → way ≠ ["net", "sku"] →
      ∀ v ∈ givenAt sizedNetworks way, v.fields?.isSome = true := by
    intro way hway hne hless
    simp only [List.prefix_cons_iff, List.prefix_nil] at hway
    obtain rfl | ⟨_, rfl, rfl | ⟨_, rfl, rfl⟩⟩ := hway
    · exact absurd rfl hne
    · decide
    · exact absurd rfl hless
  obtain ⟨before, v, rank, after, hsplit, hbefore, hafter, hvalue⟩ :=
    Merger.highest_priority_wins_at_path (m := {}) rfl rfl (List.cons_ne_nil _ _) hpriority hmapped
      (rfl : (({} : Merger).mergeConfigs (sizedNetworks.map .object) (([] : List String).map .str)
        (([1, 50, 20, 20] : List Int).map .int)).result = .ok _)
      (by rw [hoffers]; exact List.cons_ne_nil _ _)
      (by rw [hoffers]; decide)
      (by rw [hoffers]; decide)
  refine ⟨_, rfl, hvalue.trans ?_⟩
  rw [hoffers] at hsplit
  obtain _ | ⟨first, _ | ⟨second, _ | ⟨third, more⟩⟩⟩ := before
  · obtain ⟨⟨rfl, rfl⟩, rfl⟩ := by simpa using hsplit
    exact absurd (hafter (.str "large", 20) (by simp)) (by decide)
  · obtain ⟨rfl, ⟨rfl, rfl⟩, rfl⟩ := by simpa using hsplit
    rfl
  · obtain ⟨rfl, rfl, ⟨rfl, rfl⟩, rfl⟩ := by simpa using hsplit
    exact absurd (hbefore (.str "large", 20) (by simp)) (by decide)
  · simp at hsplit

/-- A value that cannot be written is lost even if its priority is the highest,
and so is any value whose source is no text: to say that it overrides the
others takes a text of both. -/
theorem winner_is_lost_unless_written :
    ({} : Merger).strategyFor (pathAt "config" ["a"]) = .priority
    ∧ (({} : Merger).mergeConfigs (sharingKey (.int Written.leastTooLong) (.int 5)) []
        [.int 20, .int 10]).config? = some []
    ∧ (({} : Merger).mergeConfigs (sharingKey (.int 1) (.int 2)) [.int 5, .int 6]
        [.int 10, .int 10]).config? = some [] :=
  ⟨by decide, by decide +kernel, by decide +kernel⟩

end Merge

end Depot
