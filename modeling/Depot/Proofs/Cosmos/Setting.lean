/-
The settings of accounts that become one. Two accounts can be one if they
agree on a setting that both have, and an account that does not have it
agrees with any (`Setting.eq_of_canMerge`). So if accounts can be one
pairwise, there is at most one value to a setting, and the merged account
should have it.

The merge asks the first account alone (`Setting.of_merge`). What it has
is kept; what only later accounts have is dropped, and which account is
the first decides about it (`Setting.kept_iff_first_has_it`,
`later_settings_are_dropped`).
-/
import Depot.Provider.Cosmos
import Depot.Proofs.Work

namespace Depot.Cosmos

/-- The settings of an account that are names. -/
inductive Setting where
  | consistency
  | kind
  deriving DecidableEq

/-- What an account has for a setting. -/
def Setting.of : Setting → Account → Option String
  | .consistency, a => a.consistency
  | .kind, a => a.kind

-- ========================================================= agreement

/-- Accounts that can be merged do not differ in any setting. -/
theorem Setting.differs_of_canMerge (s : Setting) {a b : Account} (h : canMerge a b = true) :
    differs (s.of a) (s.of b) = false := by
  simp only [canMerge, Bool.and_eq_true, Bool.not_eq_true'] at h
  cases s with
  | consistency => exact h.1.1.1
  | kind => exact h.1.2

/-- Accounts that can be one agree on a setting that both have. -/
theorem Setting.eq_of_canMerge (s : Setting) {a b : Account} (h : canMerge a b = true)
    {v w : String} (hv : s.of a = some v) (hw : s.of b = some w) : v = w := by
  have hdiffers := s.differs_of_canMerge h
  rw [hv, hw] at hdiffers
  simpa [differs] using hdiffers

-- ============================================================= merging

/-- The merged account has the settings of the first one. -/
theorem Setting.of_merge (s : Setting) {first merged : Account} {rest : List Account}
    (h : merge (first :: rest) = .ok merged) : s.of merged = s.of first := by
  obtain ⟨databases, -, hmerged⟩ := bind_eq_ok.1 h
  cases hmerged
  cases s with
  | consistency | kind => rfl

/-- Of accounts that can be one, any of which has a setting, the merged
account has it just if the first one does. -/
theorem Setting.kept_iff_first_has_it (s : Setting) {first merged : Account}
    {rest : List Account} (hpairs : (first :: rest).Pairwise fun a b => canMerge a b = true)
    (hok : merge (first :: rest) = .ok merged) {asking : Account}
    (hasking : asking ∈ first :: rest) {v : String} (hset : s.of asking = some v) :
    s.of merged = some v ↔ (s.of first).isSome = true := by
  rw [s.of_merge hok]
  constructor
  · intro hkept
    rw [hkept]
    rfl
  · intro hfirst
    obtain ⟨w, hw⟩ := Option.isSome_iff_exists.1 hfirst
    rcases List.mem_cons.1 hasking with rfl | hlater
    · exact hset
    · have hone : canMerge first asking = true := List.rel_of_pairwise_cons hpairs hlater
      rw [hw, s.eq_of_canMerge hone hw hset]

/-- Accounts of which the second has a consistency and the third a kind. -/
def sparseAccounts : List Account :=
  [{ multiRegion := some true }, { consistency := some "Session" },
    { consistency := some "Session", kind := some "MongoDB" }]

/-- What the first account has for itself it has when they are merged. -/
theorem first_consistency_is_kept :
    let accounts := sparseAccounts.reverse
    accounts.Pairwise (fun a b => canMerge a b = true) ∧ ∃ merged, merge accounts = .ok merged
      ∧ Setting.consistency.of merged = some "Session" ∧ Setting.kind.of merged = some "MongoDB" := by
  have hpairs : sparseAccounts.reverse.Pairwise (fun a b => canMerge a b = true) := by decide
  have hplain : sparseAccounts[1] ∈ sparseAccounts.reverse := by decide
  have hfull : sparseAccounts[2] ∈ sparseAccounts.reverse := by decide
  exact ⟨hpairs, _, rfl, (Setting.consistency.kept_iff_first_has_it hpairs rfl hplain rfl).2 rfl,
    (Setting.kind.kept_iff_first_has_it hpairs rfl hfull rfl).2 rfl⟩

/-- In the other order the same accounts lose both settings. -/
theorem later_settings_are_dropped :
    sparseAccounts.Pairwise (fun a b => canMerge a b = true) ∧
      ∃ merged, merge sparseAccounts = .ok merged ∧
        ∀ s : Setting, (∃ a ∈ sparseAccounts, (s.of a).isSome = true) ∧ s.of merged = none := by
  refine ⟨by decide, _, rfl, fun s => ?_⟩
  cases s with
  | consistency | kind => decide

end Depot.Cosmos
