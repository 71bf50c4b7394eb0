/-
What a kind of resource makes of several requests. A merge that succeeded
went through every step: the configurations became one, the check was
content with it, the priorities have a greatest one, and the constructor
accepted the result (`mergeRequests_ok`).

Where the kind reads what it writes, such a result is accepted wherever it
is asked about: its configuration reads as the one that was checked, so the
verdict on it is the verdict of the merge (`joins_of_mergeRequests`).
-/
import Depot.Proofs.Requirement.Key
import Depot.Proofs.Value.Order
import Depot.Provider.Kind

namespace Depot

-- ========================================================= priorities

namespace Value

theorem compare_above_int (a b : Int) :
    compare .above (.int a) (.int b) = .ok (decide (b < a)) := by
  rw [compare_above ⟨_, rfl⟩ ⟨_, rfl⟩, size_int, size_int]
  exact congrArg Except.ok (decide_eq_decide.2 Int.cast_lt)

/-- The greatest of whole numbers as a value. -/
theorem greatest_ints (n : Int) (ns : List Int) :
    greatest ((n :: ns).map .int) = .ok (.int (ns.foldl max n)) := by
  rw [List.map_cons, greatest]
  induction ns generalizing n with
  | nil => rfl
  | cons m ns ih =>
      have hstep : (do return if ← compare .above (.int m) (.int n) then .int m else .int n)
          = (.ok (.int (max n m)) : Except Fault Value) := by
        rw [compare_above_int]
        by_cases habove : n < m
        · rw [max_eq_right habove.le]
          simp [habove]
        · rw [max_eq_left (not_lt.1 habove)]
          simp [habove]
      rw [List.map_cons, List.foldlM_cons, hstep, List.foldl_cons]
      exact ih (max n m)

end Value

/-- Whole numbers and priorities that are not set count as whole numbers. -/
theorem Requirement.exists_priorities {rs : List Requirement}
    (whole : ∀ r ∈ rs, r.priority = .null ∨ ∃ n, r.priority = .int n) :
    ∃ priorities : List Int, rs.map effectivePriority = priorities.map .int := by
  induction rs with
  | nil => exact ⟨[], rfl⟩
  | cons r rs ih =>
      obtain ⟨priorities, hrest⟩ := ih fun s hs => whole s (by simp [hs])
      rcases whole r (by simp) with hnull | ⟨n, hint⟩
      · refine ⟨defaultPriority :: priorities, ?_⟩
        rw [List.map_cons, hrest, effectivePriority, hnull]
        rfl
      · refine ⟨n :: priorities, ?_⟩
        rw [List.map_cons, hrest, effectivePriority, hint]
        rfl

namespace Kind

variable {σ C : Type} {k : Kind σ C}

-- ============================================================= merging

/-- Several requests that were merged were read, merged, checked and ranked. -/
theorem mergeRequests_ok {first second merged : Request σ} {rest : List (Request σ)}
    {d d' : Desk σ} (h : (k.mergeRequests (first :: second :: rest)).run d = (.ok merged, d')) :
    ∃ config verdict priority,
      (k.mergeGroup ((first :: second :: rest).map Request.toRequirement)).1 = .ok config
        ∧ k.check config = .ok verdict ∧ verdict.valid = true
        ∧ Value.greatest (((first :: second :: rest).map Request.toRequirement).map
          Requirement.effectivePriority) = .ok priority
        ∧ merged = ⟨⟨first.type, first.key, k.write config, priority, first.provenance⟩, []⟩ := by
  unfold mergeRequests at h
  simp only [run_bind_ok] at h
  obtain ⟨isOver, d₁, -, h⟩ := h
  split at h
  · cases h
  · split at h
    · cases h
    · obtain ⟨config, d₂, hconfig, h⟩ := run_bind_ok.1 h
      obtain ⟨verdict, d₃, hcheck, h⟩ := run_bind_ok.1 h
      split at h
      · cases h
      next hvalid =>
        obtain ⟨priority, d₄, hpriority, h⟩ := run_bind_ok.1 h
        obtain ⟨result, d₅, hmake, h⟩ := run_bind_ok.1 h
        cases h
        rw [Work.run_ofReported] at hconfig
        obtain ⟨hmade, -⟩ := Work.run_ofExcept_ok.1 hmake
        obtain ⟨-, -, fs, hfs, rfl⟩ := Requirement.make_ok_iff.1 hmade
        cases hfs
        exact ⟨config, verdict, priority, congrArg Prod.fst hconfig,
          (Work.run_ofExcept_ok.1 hcheck).1, by simpa using hvalid,
          (Work.run_ofExcept_ok.1 hpriority).1, rfl⟩

/-- What several requests are as one: the type, the key and the provenance
of the first, the greatest priority, and the configuration that they
became, in a form that reads as just that and has a valid verdict. -/
structure Joins (k : Kind σ C) (first : Request σ) (group : List Requirement)
    (merged : Requirement) (config : C) (verdict : Verdict) : Prop where
  type : merged.type = first.type
  key : merged.key = first.key
  provenance : merged.provenance = first.provenance
  priority : ∃ priorities : List Int, group.map Requirement.effectivePriority = priorities.map .int
    ∧ ∃ top, priorities.max? = some top ∧ merged.priority = .int top
  merges : (k.mergeGroup group).1 = .ok config
  written : merged.config = k.write config
  read : k.read merged.config = .ok config
  accepts : k.validateMerged merged = .ok verdict
  valid : verdict.valid = true

/-- What several requests were merged to joins them, if the kind reads what
it writes. -/
theorem joins_of_mergeRequests (faithful : ∀ c, k.read (k.write c) = .ok c)
    {first second merged : Request σ} {rest : List (Request σ)} {d d' : Desk σ}
    (whole : ∀ r ∈ first :: second :: rest, r.priority = .null ∨ ∃ n, r.priority = .int n)
    (h : (k.mergeRequests (first :: second :: rest)).run d = (.ok merged, d')) :
    ∃ config verdict, k.Joins first ((first :: second :: rest).map Request.toRequirement)
      merged.toRequirement config verdict := by
  obtain ⟨config, verdict, priority, hconfig, hcheck, hvalid, hpriority, rfl⟩ := mergeRequests_ok h
  have hwhole : ∀ r ∈ (first :: second :: rest).map Request.toRequirement,
      r.priority = .null ∨ ∃ n, r.priority = .int n := by
    rintro r hr
    obtain ⟨request, hrequest, rfl⟩ := List.mem_map.1 hr
    exact whole request hrequest
  obtain ⟨priorities, hpriorities⟩ := Requirement.exists_priorities hwhole
  have hread := faithful config
  refine ⟨config, verdict, rfl, rfl, rfl, ⟨priorities, hpriorities, ?_⟩, hconfig, rfl, hread, ?_,
    hvalid⟩
  · rw [hpriorities] at hpriority
    cases priorities with
    | nil => cases hpriorities
    | cons n ns =>
        rw [Value.greatest_ints] at hpriority
        injection hpriority with hpriority
        exact ⟨ns.foldl max n, List.max?_cons', hpriority.symm⟩
  · unfold validateMerged
    rw [hread]
    exact hcheck

end Kind

end Depot
