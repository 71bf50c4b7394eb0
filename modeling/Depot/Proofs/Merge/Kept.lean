/-
A merge neither loses a setting nor makes one up. Mappings that are joined
key by key have a key exactly where one of them gives something for it;
any other value of a merge is a value that some configuration gives at
that path, or a list of items from the lists given there. Every strategy
is one or the other (`Strategy.Decides.kept`), and what lies below a value
that was kept was kept with it (`Kept.field`), so the paths of a merge are
covered whatever strategy settled which of them.

That no property is left out on the way is part of the same: a strategy is
only asked for values that it can take, so none fails, and no warning says
that one did (`Merges.keeping`). All of it takes values that can be written;
for a value that cannot, the warning comes true
(`setting_is_lost_unless_written`).
-/
import Depot.Proofs.Merge.Path

namespace Depot.Merge

variable {shares : List Share} {path : String} {default : Strategy} {v : Value} {notes : Ledger}
  {configs : List Fields} {keys : List String}

-- ============================================================ warnings

/-- No merge of what can be written warns of a property that it left out. -/
theorem Merges.keeping (h : Merges default path shares v notes) (hwritable : Writable shares) :
    Keeping notes.warnings := by
  induction h with
  | settled mixed settles => exact settles.keeps
  | dropped mixed drops => exact absurd hwritable drops.unwritable
  | joined value notes mapped several ih =>
      intro w hw
      obtain ⟨key, hlong, hmem⟩ := mem_warnings_joinedNotes hw
      exact ih key hlong (hwritable.below key) w hmem

-- ============================================================== joined

/-- The configurations are joined key by key as far as the end of the path:
wherever it leads, several of them give something, and all of them that do
give mappings. -/
def JoinedAt (configs : List Fields) (keys : List String) : Prop :=
  ∀ way, way <+: keys → way ≠ [] →
    1 < (givenAt configs way).length ∧ ∀ v ∈ givenAt configs way, v.fields?.isSome = true

/-- At the root the configurations are joined. -/
theorem joinedAt_nil (configs : List Fields) : JoinedAt configs [] :=
  fun _ hway hne => absurd (List.prefix_nil.1 hway) hne

/-- The configurations are joined below a key that several give, if all give
mappings there. -/
theorem joinedAt_concat {key : String} (h : JoinedAt configs keys)
    (hlong : 1 < (givenAt configs (keys ++ [key])).length)
    (hmapped : ∀ v ∈ givenAt configs (keys ++ [key]), v.fields?.isSome = true) :
    JoinedAt configs (keys ++ [key]) := by
  intro way hway hne
  rcases List.prefix_concat_iff.1 hway with rfl | hway
  · exact ⟨hlong, hmapped⟩
  · exact h way hway hne

/-- Where mappings are joined all the way, a merge goes on as one. -/
theorem Merges.at_joined (h : Merges default path shares v notes)
    (hway : ∀ way, way <+: keys → Mapped (sharesAt shares way)
      ∧ (way ≠ [] → 1 < (sharesAt shares way).length)) :
    ∃ notes', Merges default (pathAt path keys) (sharesAt shares keys) (v.atKeys keys) notes' := by
  induction keys generalizing path shares v notes with
  | nil => exact ⟨notes, h⟩
  | cons key keys ih =>
      have hlong : 1 < (Merge.below shares key).length :=
        (hway [key] (List.cons_prefix_cons.2 ⟨rfl, List.nil_prefix⟩)).2 (List.cons_ne_nil _ _)
      have hcomes := h.comesTo_below (hway [] List.nil_prefix).1 key
      have hbelow : ∃ notes', Merges default (pathBelow path key) (Merge.below shares key)
          (v.field key) notes' := by
        match hshares : Merge.below shares key with
        | [] | [_] => simp [hshares] at hlong
        | _ :: _ :: _ =>
            rw [hshares] at hcomes
            exact hcomes
      obtain ⟨notes', hmerges⟩ := hbelow
      refine ih hmerges fun way hprefix => ?_
      have hlonger := hway (key :: way) (List.cons_prefix_cons.2 ⟨rfl, hprefix⟩)
      exact ⟨hlonger.1, fun _ => hlonger.2 (List.cons_ne_nil _ _)⟩

/-- Joined mappings have the keys under which some share has something. -/
theorem Merges.keys_iff (h : Merges default path shares v notes) (hmapped : Mapped shares)
    (hwritable : Writable shares) :
    ∃ fs, v = .object fs ∧ ∀ key, key ∈ Fields.keys fs ↔ Merge.below shares key ≠ [] := by
  cases h with
  | settled mixed settles => exact absurd hmapped mixed
  | dropped mixed drops => exact absurd hmapped mixed
  | joined value notes mapped several =>
      refine ⟨_, rfl, fun key => ?_⟩
      have hstands := fun hlong => (several key hlong).ne_null (hwritable.below key)
      rw [← isSome_joinedAt hstands, ← get?_joined, Option.isSome_iff_ne_none, Ne, Fields.get?,
        Table.lookup_eq_none, not_not]
      exact Iff.rfl

-- ================================================================ kept

/-- The value is one that a configuration gives at the path, or a list of
items of lists that configurations give there. -/
def Kept (configs : List Fields) (keys : List String) (v : Value) : Prop :=
  v ∈ givenAt configs keys
    ∨ ∃ items, v = .list items
      ∧ ∀ item ∈ items, ∃ c ∈ configs, ∃ xs, (Value.object c).atKeys keys = .list xs ∧ item ∈ xs

theorem Kept.field {key : String} (h : Kept configs keys v) (hne : v.field key ≠ .null) :
    Kept configs (keys ++ [key]) (v.field key) := by
  obtain hgiven | ⟨items, rfl, -⟩ := h
  · obtain ⟨-, c, hc, rfl⟩ := mem_givenAt.1 hgiven
    exact .inl (mem_givenAt.2 ⟨hne, c, hc, Value.atKeys_concat _ _ _⟩)
  · exact absurd rfl hne

/-- What a strategy decides is the value of a share or a list of items of
the shares. -/
theorem Strategy.Decides.kept {way : Strategy} (h : way.Decides shares v) :
    (∃ s ∈ shares, v = s.value)
      ∨ ∃ items, v = .list items ∧ ∀ item ∈ items, ∃ s ∈ shares, item ∈ s.value.listed := by
  cases way with
  | union =>
      refine .inr ⟨_, h, fun item hitem => ?_⟩
      exact List.mem_flatMap.1 ((Value.firstOccurrences_sublist _).subset hitem)
  | intersection =>
      refine .inr ⟨_, h, fun item hitem => ?_⟩
      cases shares with
      | nil => cases hitem
      | cons first rest => exact ⟨first, List.mem_cons_self, (List.mem_filter.1 hitem).1⟩
  | maximum | minimum =>
      obtain ⟨s, hs, hvalue, -⟩ := h
      exact .inl ⟨s, hs, hvalue⟩
  | priority =>
      obtain ⟨before, s, after, rfl, hvalue, -⟩ := h
      exact .inl ⟨s, by simp, hvalue⟩
  | custom => exact h.elim

/-- What shares come to that are not joined. -/
theorem ComesTo.kept (h : ComesTo default path shares v) (hne : v ≠ .null)
    (hsettled : 1 < shares.length → ¬ Mapped shares) :
    (∃ s ∈ shares, v = s.value)
      ∨ ∃ items, v = .list items ∧ ∀ item ∈ items, ∃ s ∈ shares, item ∈ s.value.listed := by
  match shares with
  | [] => exact absurd h hne
  | [s] => exact .inl ⟨s, List.mem_singleton_self s, h⟩
  | s :: t :: rest =>
      obtain ⟨notes, hmerges⟩ := h
      cases hmerges with
      | settled mixed settles => exact settles.decides.kept
      | dropped mixed drops => exact absurd drops.null hne
      | joined value notes mapped several => exact absurd mapped (hsettled (by simp))

/-- Where something is given that can be written, something comes of it. -/
theorem ComesTo.ne_null (h : ComesTo default path shares v) (hgiven : Given shares)
    (hwritable : Writable shares) (hne : shares ≠ []) : v ≠ .null := by
  match shares with
  | [] => exact absurd rfl hne
  | [s] =>
      rw [show v = s.value from h]
      exact hgiven s (List.mem_singleton_self s)
  | s :: t :: rest =>
      obtain ⟨notes, hmerges⟩ := h
      exact hmerges.ne_null hwritable

section Shared

variable {sources priorities : List Value}

/-- Where the configurations are joined, so are the shares, from the root
on. -/
theorem Shared.way_of_joinedAt (h : Shared configs sources priorities shares)
    (hjoined : JoinedAt configs keys) {way : List String} (hway : way <+: keys) :
    Mapped (sharesAt shares way) ∧ (way ≠ [] → 1 < (sharesAt shares way).length) := by
  by_cases hnil : way = []
  · subst hnil
    exact ⟨h.mapped, fun hne => absurd rfl hne⟩
  · obtain ⟨hlong, hmapped⟩ := hjoined way hway hnil
    refine ⟨(h.mapped_iff way).2 hmapped, fun _ => ?_⟩
    rwa [← h.givenAt_eq, List.length_map] at hlong

/-- A share at a path has a value that a configuration gives there. -/
theorem Shared.value_mem_givenAt (h : Shared configs sources priorities shares) {s : Share}
    (hs : s ∈ sharesAt shares keys) : s.value ∈ givenAt configs keys := by
  rw [← h.givenAt_eq]
  exact List.mem_map_of_mem hs

/-- A value that comes from the shares is kept. -/
theorem Shared.kept (h : Shared configs sources priorities shares)
    (hcomes : (∃ s ∈ sharesAt shares keys, v = s.value) ∨ ∃ items, v = .list items
      ∧ ∀ item ∈ items, ∃ s ∈ sharesAt shares keys, item ∈ s.value.listed) :
    Kept configs keys v := by
  obtain ⟨s, hs, rfl⟩ | ⟨items, rfl, hitems⟩ := hcomes
  · exact .inl (h.value_mem_givenAt hs)
  · refine .inr ⟨items, rfl, fun item hitem => ?_⟩
    obtain ⟨s, hs, hmem⟩ := hitems item hitem
    obtain ⟨-, c, hc, hvalue⟩ := mem_givenAt.1 (h.value_mem_givenAt hs)
    cases hlist : s.value with
    | list xs =>
        rw [hlist] at hmem hvalue
        exact ⟨c, hc, xs, hvalue, hmem⟩
    | _ => rw [hlist] at hmem; cases hmem

/-- There are shares at a path if a configuration gives something there. -/
theorem Shared.sharesAt_ne_nil (h : Shared configs sources priorities shares) :
    sharesAt shares keys ≠ [] ↔ ∃ c ∈ configs, (Value.object c).atKeys keys ≠ .null := by
  have hgiven : sharesAt shares keys ≠ [] ↔ givenAt configs keys ≠ [] := by
    rw [← h.givenAt_eq, Ne, Ne, List.map_eq_nil_iff]
  rw [hgiven]
  constructor
  · intro hsome
    obtain ⟨v, hv⟩ := List.exists_mem_of_ne_nil _ hsome
    obtain ⟨hne, c, hc, rfl⟩ := mem_givenAt.1 hv
    exact ⟨c, hc, hne⟩
  · rintro ⟨c, hc, hne⟩
    exact List.ne_nil_of_mem (mem_givenAt.2 ⟨hne, c, hc, rfl⟩)

end Shared

-- ======================================================== whole merges

/-- A merged configuration has all that its sources have, and nothing
else. -/
structure Keeps (configs : List Fields) (config : Fields) : Prop where
  joined : ∀ keys, JoinedAt configs keys → ∃ fs, (Value.object config).atKeys keys = .object fs
    ∧ ∀ key, key ∈ Fields.keys fs ↔ ∃ c ∈ configs, (Value.object c).atKeys (keys ++ [key]) ≠ .null
  present : ∀ keys key, JoinedAt configs keys →
    (∃ c ∈ configs, (Value.object c).atKeys (keys ++ [key]) ≠ .null) →
    (Value.object config).atKeys (keys ++ [key]) ≠ .null
  settled : ∀ keys, ¬ JoinedAt configs keys → (Value.object config).atKeys keys ≠ .null →
    Kept configs keys ((Value.object config).atKeys keys)

section Root

variable {m : Merger} {sources priorities : List Value} {fs : Fields}

/-- What a merge has at the end of a path whose keys but the last are
joined. -/
theorem Root.comesTo_concat (h : Root m configs sources priorities shares fs notes)
    (hjoined : JoinedAt configs keys) (key : String) :
    ComesTo m.default (pathAt "config" (keys ++ [key])) (sharesAt shares (keys ++ [key]))
      ((Value.object fs).atKeys (keys ++ [key])) := by
  refine h.merges.comesTo (by simp) fun way hway hless => ?_
  rcases List.prefix_concat_iff.1 hway with rfl | hway
  · exact absurd rfl hless
  · exact (h.way_of_joinedAt hjoined hway).1

/-- A merge of what can be written keeps all settings. -/
theorem Root.keeps (h : Root m configs sources priorities shares fs notes)
    (hwritable : Writable shares) : Keeps configs fs where
  joined keys hjoined := by
    have hway := fun way (hway : way <+: keys) => h.way_of_joinedAt hjoined hway
    obtain ⟨notes', hmerges⟩ := h.merges.at_joined hway
    obtain ⟨gs, hgs, hkeys⟩ := hmerges.keys_iff (hway keys (List.prefix_refl keys)).1
      (hwritable.at keys)
    refine ⟨gs, hgs, fun key => ?_⟩
    rw [hkeys, ← sharesAt_concat, h.sharesAt_ne_nil]
  present keys key hjoined hgiven := by
    refine (h.comesTo_concat hjoined key).ne_null ?_ (hwritable.at _) (h.sharesAt_ne_nil.2 hgiven)
    rw [sharesAt_concat]
    exact given_below _ key
  settled keys := by
    induction keys using List.reverseRecOn with
    | nil => exact fun hnot => absurd (joinedAt_nil configs) hnot
    | append_singleton keys key ih =>
        intro hnot hne
        by_cases hjoined : JoinedAt configs keys
        · -- the path leaves the joined mappings with its last key
          refine h.kept ((h.comesTo_concat hjoined key).kept hne fun hlong hmapped => hnot ?_)
          refine joinedAt_concat hjoined ?_ ((h.mapped_iff _).1 hmapped)
          rwa [← h.givenAt_eq, List.length_map]
        · rw [Value.atKeys_concat] at hne ⊢
          refine (ih hjoined fun hnull => hne ?_).field hne
          rw [hnull]
          rfl

end Root

/-- Whatever a merge returns has every setting of its sources and no other,
and the merge warns of no property that it left out, if its sources and their
priorities can be written. Keys are texts, as in JSON. -/
theorem Merger.merge_keeps_settings {m : Merger} (hcustoms : m.customs = {})
    {configs : List Fields} {sources : List String} {priorities : List Int}
    (hconfigs : ∀ c ∈ configs, (Value.object c).isWritable = true)
    (hpriorities : ∀ p ∈ priorities, Written.isWritable p = true) {merged : Merged}
    (hok : (m.mergeConfigs (configs.map .object) (sources.map .str)
      (priorities.map .int)).result = .ok merged) :
    Keeps configs merged.config ∧ ∃ notes findings,
      m.checks.check (.object merged.config) = .ok findings
      ∧ merged.warnings = notes ++ findings.warnings ∧ Keeping notes := by
  obtain ⟨sources', shares, fs, notes, hroot, hok'⟩ := Merger.exists_root_of_ok hcustoms hok
  obtain ⟨findings, hfindings, hwarnings⟩ := hroot.warnings_of_ok hok'
  have hwritable := hroot.writable_fitted hconfigs hpriorities
  rw [(hroot.of_ok hok').1]
  exact ⟨hroot.keeps hwritable, notes.warnings, findings, hfindings, hwarnings,
    hroot.merges.keeping hwritable⟩

/-- Networks that are joined key by key, with tags that are united, a size
that only one of them has and a memory that is no number in one of them. -/
def mixedSettings : List Fields :=
  [[("net", .object [("sku", .str "small"), ("tags", .list [.str "a"])]), ("memory", .int 1)],
    [("net", .object [("sku", .null), ("tags", .list [.str "b", .str "a"])]),
      ("memory", .str "2Gi")]]

/-- Settings of several kinds are kept through one merge. -/
theorem mixed_settings_are_kept : ∃ merged : Merged,
    (({} : Merger).mergeConfigs (mixedSettings.map .object) [] [.int 1, .int 5]).result = .ok merged
    ∧ Keeps mixedSettings merged.config ∧ ∃ notes findings,
      Checks.check {} (.object merged.config) = .ok findings
      ∧ merged.warnings = notes ++ findings.warnings ∧ Keeping notes :=
  ⟨_, rfl, Merger.merge_keeps_settings (m := {}) rfl (by decide) (by decide)
    (rfl : (({} : Merger).mergeConfigs (mixedSettings.map .object) (([] : List String).map .str)
      (([1, 5] : List Int).map .int)).result = .ok _)⟩

/-- A setting that no one disputes is lost if it cannot be written, and so is
one whose sources are disputed and are no texts; the warning says it. -/
theorem setting_is_lost_unless_written :
    (({} : Merger).mergeConfigs (sharingKey (.int Written.leastTooLong)
        (.int Written.leastTooLong)) []).config? = some []
    ∧ (({} : Merger).mergeConfigs (sharingKey (.int 1) (.int 2)) [.int 5, .int 6]
        [.int 10, .int 10]).config? = some [] :=
  ⟨by decide +kernel, by decide +kernel⟩

end Depot.Merge
