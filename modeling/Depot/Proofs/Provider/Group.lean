/-
Groups of requests at a kind of resource that has a configuration model.
Merging them takes no work: all steps are results, so that a merge leaves
the desk as it was and gives what the requests determine
(`run_mergeRequests`). First the requests are counted and their types
compared; then their configurations become one (`Model.mergeGroup`); then
the request is made that stands for all of them (`Model.conclude`).

Configurations go together if every one goes with each of those after it
(`firstClash?_eq_none_iff`). A group that does not become one is refused:
the fault says that the requests do not go together or are too many. Only
the merge of the configurations itself may be at fault in another way
(`join_error`).
-/
import Depot.Proofs.Provider.Merging

namespace Depot

variable {σ C : Type}

-- ============================================================== faults

/-- A fault that refuses a group: its requests do not go together, or are too
much for one resource. -/
def Fault.IsRefusal (fault : Fault) : Prop :=
  fault.kind? = some .merge ∨ fault.kind? = some .resourceLimit

theorem Fault.isRefusal_merge (message : String) (configs : List Value) (details : Fields) :
    (Fault.merge message configs details).IsRefusal := .inl rfl

theorem Fault.isRefusal_incompatibleConfigs (type why : Value) (configs : List Value) :
    (Fault.incompatibleConfigs type why configs).IsRefusal := .inl rfl

theorem Fault.isRefusal_limitExceeded (type limit current : Value) :
    (Fault.limitExceeded type limit current).IsRefusal := .inr rfl

namespace Model

variable {m : Model C}

-- ======================================================= configurations

/-- There is no clash if the first goes with all others and these have none. -/
theorem firstClash?_cons {canMerge : C → C → Bool} {c : C} {i : Nat} {rest : List (C × Nat)} :
    firstClash? canMerge ((c, i) :: rest) = none
      ↔ (∀ e ∈ rest, canMerge c e.1 = true) ∧ firstClash? canMerge rest = none := by
  rw [firstClash?]
  split
  · next d j hclash =>
      have hin := List.mem_of_find?_eq_some hclash
      have hnot := List.find?_some hclash
      exact iff_of_false nofun fun h => by simp [h.1 _ hin] at hnot
  · next hnone =>
      refine (and_iff_right fun e he => ?_).symm
      simpa using List.find?_eq_none.1 hnone e he

/-- There is no clash among configurations if each goes with all that come
after it. -/
theorem firstClash?_eq_none_iff {canMerge : C → C → Bool} {configs : List C} {start : Nat} :
    firstClash? canMerge (configs.zipIdx start) = none
      ↔ configs.Pairwise fun c d => canMerge c d = true := by
  induction configs generalizing start with
  | nil => simp [firstClash?]
  | cons c configs ih =>
      rw [List.zipIdx_cons, firstClash?_cons, ih, List.pairwise_cons]
      refine and_congr_left fun _ => ?_
      constructor
      · intro h d hd
        rw [← List.zipIdx_map_fst (start + 1) configs] at hd
        obtain ⟨e, he, rfl⟩ := List.mem_map.1 hd
        exact h e he
      · intro h e he
        exact h e.1 (List.fst_mem_of_mem_zipIdx he)

/-- A configuration that cannot be read is refused. -/
theorem isRefusal_readForMerge {r : Requirement} {fault : Fault}
    (h : m.readForMerge r = .error fault) : fault.IsRefusal := by
  unfold readForMerge at h
  split at h
  · cases h
  · cases h
    exact Fault.isRefusal_merge _ _ _

/-- A group that was merged was read, was compatible, and went through the
merge. -/
theorem mergeGroup_ok {group : List Requirement} {config : C}
    (h : m.mergeGroup group = .ok config) :
    ∃ configs, group.mapM m.readForMerge = .ok configs
      ∧ configs.Pairwise (fun c d => m.canMerge c d = true) ∧ m.merge configs = .ok config := by
  obtain ⟨configs, hread, h⟩ := bind_eq_ok.1 h
  split at h
  · cases h
  · next hnone => exact ⟨configs, hread, firstClash?_eq_none_iff.1 hnone, h⟩

/-- Configurations that are read and go together are merged. -/
theorem mergeGroup_of_pairwise {group : List Requirement} {configs : List C}
    (hread : group.mapM m.readForMerge = .ok configs)
    (hpairs : configs.Pairwise fun c d => m.canMerge c d = true) :
    m.mergeGroup group = m.merge configs := by
  unfold mergeGroup
  rw [hread]
  dsimp only [bind, Except.bind]
  rw [firstClash?_eq_none_iff.2 hpairs]

/-- A group that was not merged was refused, or its merge failed. -/
theorem mergeGroup_error {group : List Requirement} {fault : Fault}
    (h : m.mergeGroup group = .error fault) :
    fault.IsRefusal ∨ ∃ configs, group.mapM m.readForMerge = .ok configs
      ∧ configs.Pairwise (fun c d => m.canMerge c d = true) ∧ m.merge configs = .error fault := by
  rcases bind_eq_error.1 h with hread | ⟨configs, hread, h⟩
  · obtain ⟨r, -, hr⟩ := exists_of_mapM_error hread
    exact .inl (isRefusal_readForMerge hr)
  · split at h
    · cases h
      exact .inl (Fault.isRefusal_incompatibleConfigs _ _ _)
    · next hnone => exact .inr ⟨configs, hread, firstClash?_eq_none_iff.1 hnone, h⟩

-- ============================================================ requests

/-- The fault of a configuration that cannot be used. -/
def unusable (m : Model C) (first : Request σ) (group : List Requirement) (errors : List Value) :
    Fault :=
  .merge s!"Merged configuration for \"{first.resourceKey}\" is invalid"
    (group.map fun r => .object r.config) [("errors", .list errors), ("provider_id", .str m.id)]

/-- The request that stands for a group with its merged configuration. -/
def conclude (m : Model C) (first : Request σ) (group : List Requirement) (config : C) :
    Except Fault (Request σ) :=
  if (m.check config).valid then
    Value.greatest (group.map Requirement.effectivePriority) >>= fun priority =>
    Requirement.make first.type first.key (.object (m.write config)) priority first.provenance >>=
    fun r => .ok ⟨r, []⟩
  else .error (m.unusable first group (m.check config).errors)

/-- A group of requests as one, the first of them given. -/
def join (m : Model C) (first : Request σ) (group : List Requirement) :
    Except Fault (Request σ) :=
  if m.limit < group.length then
    .error (.limitExceeded (.str m.type) (.int m.limit) (.int group.length))
  else match group.find? fun r => !r.type.same first.type with
    | some other =>
        let types := s!"{first.type.label} and {other.type.label}"
        .error (.incompatibleConfigs first.type (.str s!"mixed resource types {types}"))
    | none => m.mergeGroup group >>= m.conclude first group

variable {first merged : Request σ} {group : List Requirement} {config : C}

/-- A group concludes in one request if its configuration is valid and the
request can be made. -/
theorem conclude_ok_iff :
    m.conclude first group config = .ok merged
      ↔ (m.check config).valid = true ∧ first.type.isTruthy = true ∧ first.key.isTruthy = true
        ∧ ∃ priority, Value.greatest (group.map Requirement.effectivePriority) = .ok priority
          ∧ merged = ⟨⟨first.type, first.key, m.write config, priority, first.provenance⟩, []⟩ := by
  unfold conclude
  by_cases hvalid : (m.check config).valid = true
  · rw [if_pos hvalid]
    constructor
    · intro h
      obtain ⟨priority, hpriority, h⟩ := bind_eq_ok.1 h
      obtain ⟨r, hr, h⟩ := bind_eq_ok.1 h
      obtain ⟨htype, hkey, fs, hfs, rfl⟩ := Requirement.make_ok_iff.1 hr
      cases hfs
      cases h
      exact ⟨hvalid, htype, hkey, priority, hpriority, rfl⟩
    · rintro ⟨-, htype, hkey, priority, hpriority, rfl⟩
      refine bind_eq_ok.2 ⟨priority, hpriority, bind_eq_ok.2 ⟨_, ?_, rfl⟩⟩
      exact Requirement.make_ok_iff.2 ⟨htype, hkey, _, rfl, rfl⟩
  · rw [if_neg hvalid]
    exact ⟨nofun, fun h => absurd h.1 hvalid⟩

/-- What cannot be concluded was refused, has priorities that cannot be
compared, or was no proper request to begin with. -/
theorem conclude_error {fault : Fault} (h : m.conclude first group config = .error fault) :
    fault.IsRefusal ∨ Value.greatest (group.map Requirement.effectivePriority) = .error fault
      ∨ first.type.isTruthy = false ∨ first.key.isTruthy = false := by
  unfold conclude at h
  split at h
  · rcases bind_eq_error.1 h with hpriority | ⟨priority, -, h⟩
    · exact .inr (.inl hpriority)
    · rcases bind_eq_error.1 h with hmake | ⟨r, -, h⟩
      · unfold Requirement.make at hmake
        split at hmake
        · next htype => exact .inr (.inr (.inl (by simpa using htype)))
        · split at hmake
          · next hkey => exact .inr (.inr (.inr (by simpa using hkey)))
          · cases hmake
      · cases h
  · cases h
    exact .inl (Fault.isRefusal_merge _ _ _)

/-- Requests of one type that are not too many. -/
structure Fits (m : Model C) (first : Request σ) (group : List Requirement) : Prop where
  count : (group.length : Int) ≤ m.limit
  types : ∀ r ∈ group, r.type.same first.type = true

/-- Requests that fit are merged and concluded. -/
theorem join_of_fits (h : m.Fits first group) :
    m.join first group = m.mergeGroup group >>= m.conclude first group := by
  have hnone : (group.find? fun r => !r.type.same first.type) = none :=
    List.find?_eq_none.2 fun r hr => by simp [h.types r hr]
  unfold join
  rw [if_neg (not_lt.2 h.count), hnone]

/-- Requests that were joined fit. -/
theorem fits_of_join_ok (h : m.join first group = .ok merged) : m.Fits first group := by
  unfold join at h
  split at h
  · cases h
  · next hcount =>
      split at h
      · cases h
      · next hnone => exact ⟨not_lt.1 hcount, by simpa using hnone⟩

/-- Requests are joined if they fit, merge and conclude. -/
theorem join_ok_iff :
    m.join first group = .ok merged
      ↔ m.Fits first group
        ∧ ∃ config, m.mergeGroup group = .ok config ∧ m.conclude first group config = .ok merged := by
  constructor
  · intro h
    have hfits := fits_of_join_ok h
    rw [join_of_fits hfits] at h
    exact ⟨hfits, bind_eq_ok.1 h⟩
  · rintro ⟨hfits, hboth⟩
    rw [join_of_fits hfits]
    exact bind_eq_ok.2 hboth

/-- Requests that are not joined were refused, could not be merged or ranked,
or have no type or key. -/
theorem join_error {fault : Fault} (h : m.join first group = .error fault) :
    fault.IsRefusal
      ∨ (∃ configs, group.mapM m.readForMerge = .ok configs
        ∧ configs.Pairwise (fun c d => m.canMerge c d = true) ∧ m.merge configs = .error fault)
      ∨ Value.greatest (group.map Requirement.effectivePriority) = .error fault
      ∨ first.type.isTruthy = false ∨ first.key.isTruthy = false := by
  unfold join at h
  split at h
  · cases h
    exact .inl (Fault.isRefusal_limitExceeded _ _ _)
  · split at h
    · cases h
      exact .inl (Fault.isRefusal_incompatibleConfigs _ _ _)
    · rcases bind_eq_error.1 h with hmerge | ⟨config, -, hconclude⟩
      · exact (mergeGroup_error hmerge).imp_right .inl
      · exact (conclude_error hconclude).imp_right .inr

end Model

-- ================================================================ work

namespace Kind

/-- Merging several requests is holding them against each other. -/
theorem run_mergeRequests (m : Model C) (first second : Request σ) (rest : List (Request σ))
    (d : Desk σ) :
    ((ofModel m).mergeRequests (first :: second :: rest)).run d
      = (m.join first ((first :: second :: rest).map Request.toRequirement), d) := by
  unfold mergeRequests Model.join
  dsimp only [ofModel]
  generalize (first :: second :: rest).map Request.toRequirement = group
  have hcount : (Work.ofExcept (Value.compare .above (.int group.length) (.int m.limit))
      : Work σ Bool).run d = (.ok (decide (m.limit < group.length)), d) :=
    congrArg (·, d) (Value.compare_above_int _ _)
  refine (run_bind_of_ok hcount).trans ?_
  by_cases hmany : m.limit < group.length
  · rw [if_pos hmany, if_pos (decide_eq_true hmany)]
    rfl
  · rw [if_neg hmany, if_neg (by simpa using hmany)]
    cases group.find? fun r => !r.type.same first.type with
    | some other => rfl
    | none =>
        dsimp only
        rw [run_bind, Work.run_ofReported, List.append_nil]
        cases m.mergeGroup group with
        | error fault => rfl
        | ok config =>
            dsimp only
            rw [run_bind, Work.run_ofExcept]
            show _ = (m.conclude first group config, d)
            unfold Model.conclude
            cases hvalid : (m.check config).valid with
            | false => simp [hvalid, Model.unusable]
            | true =>
                simp only [hvalid, Bool.not_true, Bool.false_eq_true, if_false, if_true]
                rw [run_bind, Work.run_ofExcept]
                rcases Value.greatest (group.map Requirement.effectivePriority) with fault | priority
                · rfl
                · dsimp only
                  rw [run_bind, Work.run_ofExcept]
                  show _ = (Requirement.make _ _ _ _ _ >>= _, d)
                  rcases Requirement.make first.type first.key (.object (m.write config)) priority
                    first.provenance with fault | r
                  · rfl
                  · rfl

end Kind

end Depot
