/-
Ties between sources. Where priority settles a path, the earliest of the
inputs with the highest priority wins. A strict merge is to refuse a tie
between such inputs that disagree, and it does as long as all inputs at
the path have that priority. One input of a lower priority is enough to
make it pass: then the difference counts as resolvable by priority, though
priority does not resolve it (`outranked_tie_is_decided`).

What a merge traces is independent of whether it is strict, so the inputs
of a path are read off the same merge with tracing switched on.
-/
import Depot.Proofs.Merge.Run

namespace Depot.Merge

-- ============================================================== inputs

/-- The input holds the highest priority at the path. -/
def Trace.HasTop (t : Trace) (c : Contribution) : Prop :=
  c ∈ t.inputs ∧ ∀ d ∈ t.inputs, Value.compare .below c.priority d.priority = .ok false

/-- The inputs of the highest priority have one value. -/
def Trace.Unanimous (t : Trace) : Prop :=
  ∀ c d, t.HasTop c → t.HasTop d → c.value.wire = d.value.wire

/-- The merger with its paths traced. -/
def Merger.traced (m : Merger) : Merger := { m with tracing := true }

/-- Contributions compare as the ranks of their shares. -/
theorem compare_below_ranks (s t : Share) :
    Value.compare .below s.contribution.priority t.contribution.priority
      = .ok (decide (s.rank < t.rank)) := by
  have hsize : ∀ n : Int, Value.Comparison.worth .below (.int n) = -(n : ℚ) := by
    intro n
    show -((n : ℚ) / ((1 : ℕ) : ℚ)) = -(n : ℚ)
    rw [Nat.cast_one, div_one]
  have hworth := Value.compare_worth (.inr rfl) (v := .int s.rank) (w := .int t.rank) rfl rfl
  rw [hsize, hsize] at hworth
  exact hworth.trans (congrArg Except.ok (decide_eq_decide.2 (by simp)))

/-- A contribution is on top if it is that of a share of the highest rank. -/
theorem hasTop_iff {t : Trace} {shares : List Share}
    (hinputs : t.inputs = shares.map Share.contribution) (c : Contribution) :
    t.HasTop c ↔ ∃ s ∈ shares, s.contribution = c ∧ ∀ u ∈ shares, u.rank ≤ s.rank := by
  unfold Trace.HasTop
  rw [hinputs, List.mem_map]
  constructor
  · rintro ⟨⟨s, hs, rfl⟩, hall⟩
    refine ⟨s, hs, rfl, fun u hu => ?_⟩
    have hbelow := hall _ (List.mem_map_of_mem hu)
    rw [compare_below_ranks] at hbelow
    simpa using hbelow
  · rintro ⟨s, hs, rfl, hall⟩
    refine ⟨⟨s, hs, rfl⟩, fun d hd => ?_⟩
    obtain ⟨u, hu, rfl⟩ := List.mem_map.1 hd
    rw [compare_below_ranks]
    simpa using hall u hu

-- =============================================================== traces

/-- Every trace of a merge is that of a settled path, and a clear merge is
clear there. -/
theorem Merges.settles_of_trace {default : Strategy} {path : String} {shares : List Share}
    {v : Value} {notes : Ledger} (h : Merges default path shares v notes) {t : Trace}
    (ht : t ∈ notes.traces) :
    ∃ path' shares' v' notes', Settles default path' shares' v' notes' ∧ t ∈ notes'.traces
      ∧ (notes.Clear → notes'.Clear) := by
  induction h with
  | settled mixed settles => exact ⟨_, _, _, _, settles, ht, id⟩
  | dropped mixed drops => exact absurd ht (by simp [drops.silent])
  | joined value notes mapped several ih =>
      obtain ⟨key, hlong, hkey⟩ := mem_traces_joinedNotes ht
      obtain ⟨path', shares', v', notes', hsettles, ht', hclear⟩ := ih key hlong hkey
      exact ⟨path', shares', v', notes', hsettles, ht',
        fun hjoined => hclear (clear_joinedNotes.1 hjoined key hlong)⟩

/-- What a clear merge did where priority settled a path. The inputs are of
one kind; if none has a lower priority than another they have one value;
and the output is the value of the earliest of the highest priority. -/
structure Trace.SettledByPriority (t : Trace) : Prop where
  sameKind : ∀ c ∈ t.inputs, ∀ d ∈ t.inputs, c.value.kind = d.value.kind
  agree : (∀ c ∈ t.inputs, t.HasTop c) → t.Unanimous
  earliest : ∃ before c after, t.inputs = before ++ c :: after ∧ t.output = c.value
    ∧ t.HasTop c ∧ ∀ d ∈ before, ¬ t.HasTop d

/-- Where priority settles a path without conflict, its trace tells so. -/
theorem Settles.settledByPriority {default : Strategy} {path : String} {shares : List Share}
    {v : Value} {notes : Ledger} (h : Settles default path shares v notes) (hclear : notes.Clear)
    {t : Trace} (ht : t ∈ notes.traces) (hstrategy : t.strategy = .priority) :
    t.SettledByPriority := by
  obtain ⟨warnings, htraces⟩ := h.traced
  rw [htraces, List.mem_singleton] at ht
  obtain ⟨hkind, hagree⟩ := h.clear.1 hclear
  have hdecides := h.decides
  subst ht
  rw [show wayFor default path (shares.map Share.value) = .priority from hstrategy]
    at hdecides hagree
  obtain ⟨before, s, after, hsplit, hvalue, hbefore, hafter⟩ := hdecides
  have htop := hasTop_iff (t := ⟨.str path, wayFor default path (shares.map Share.value),
    shares.map Share.contribution, v, warnings⟩) rfl
  have hall : ∀ u ∈ shares, u.rank ≤ s.rank := by
    rw [hsplit]
    intro u hu
    rcases List.mem_append.1 hu with hu | _ | ⟨_, hu⟩
    · exact (hbefore u hu).le
    · exact le_refl _
    · exact hafter u hu
  refine ⟨?_, ?_, ?_⟩
  · intro c hc d hd
    obtain ⟨u, hu, rfl⟩ := List.mem_map.1 hc
    obtain ⟨w, hw, rfl⟩ := List.mem_map.1 hd
    exact hkind u hu w hw
  · intro hlevel c d hc hd
    have hranks : Level shares := by
      have hmost : ∀ u ∈ shares, ∀ w ∈ shares, w.rank ≤ u.rank := by
        intro u hu w hw
        obtain ⟨u', hu', hsame, hmost⟩ :=
          (htop _).1 (hlevel u.contribution (List.mem_map_of_mem hu))
        have hrank : u'.rank = u.rank := by
          injection congrArg Contribution.priority hsame
        exact hrank ▸ hmost w hw
      exact fun u hu w hw => le_antisymm (hmost w hw u hu) (hmost u hu w hw)
    obtain ⟨u, hu, rfl⟩ := List.mem_map.1 hc.1
    obtain ⟨w, hw, rfl⟩ := List.mem_map.1 hd.1
    exact hagree rfl hranks u hu w hw
  · refine ⟨before.map Share.contribution, s.contribution, after.map Share.contribution, ?_,
      hvalue, (htop _).2 ⟨s, by rw [hsplit]; simp, rfl, hall⟩, ?_⟩
    · show shares.map Share.contribution = _
      rw [hsplit, List.map_append, List.map_cons]
    · intro d hd hdtop
      obtain ⟨u, hu, rfl⟩ := List.mem_map.1 hd
      obtain ⟨u', hu', hsame, hmost⟩ := (htop _).1 hdtop
      have hrank : u'.rank = u.rank := by
        injection congrArg Contribution.priority hsame
      have hlt := hbefore u hu
      have hle := hmost s (by rw [hsplit]; simp)
      omega

-- ======================================================= strict merges

/-- A strict merge that returns settles every path by priority without a
tie between inputs that disagree, unless a further input has a lower
priority; the earliest of the highest priority wins in any case. -/
theorem Merger.strict_merge_settles_ties {m : Merger} (hstrict : m.strict = true)
    (hcustoms : m.customs = {}) {configs : List Fields} {sources priorities : List Value}
    (hsources : Fits .str configs.length sources)
    (hpriorities : Fits .int configs.length priorities) {merged : Merged}
    (hok : (m.mergeConfigs (configs.map .object) sources priorities).result = .ok merged)
    {t : Trace}
    (ht : t ∈ (m.traced.mergeConfigs (configs.map .object) sources priorities).traces)
    (hpriority : t.strategy = .priority) : t.SettledByPriority := by
  obtain ⟨shares, hshared⟩ := exists_shared hsources hpriorities
  obtain ⟨fs, notes, hroot⟩ := hshared.root m.default
  have hclear : notes.Clear := ((hroot m ⟨hcustoms, rfl⟩).of_ok hok).2 hstrict
  have ht' : t ∈ notes.traces := by
    rw [(hroot m.traced ⟨hcustoms, rfl⟩).traces_eq] at ht
    exact ht
  have hmerges := (hroot m ⟨hcustoms, rfl⟩).merges
  obtain ⟨_, _, _, _, hsettles, hmem, hbelow⟩ := hmerges.settles_of_trace ht'
  exact hsettles.settledByPriority (hbelow hclear) hmem hpriority

/-- A strict merger with nothing but its defaults. -/
def strictMerger : Merger := { strict := true }

/-- Priorities of which the first two are the highest. -/
def pairOnTop : List Value := [.int 20, .int 20, .int 10]

theorem fits_pairOnTop {configs : List Fields} (h : configs.length = 3) :
    Fits .int configs.length pairOnTop := .inr ⟨[20, 20, 10], h.symm, rfl⟩

/-- Two sources of the highest priority agree on a size; a third one wants
another. -/
def agreedConfigs : List Fields :=
  [[("sku", .str "large")], [("sku", .str "large")], [("sku", .str "small")]]

/-- How the size that two sources agree on was settled. -/
def agreedTrace : Trace :=
  ⟨.str "config.sku", .priority,
    [⟨.str "large", .str "source-0", .int 20⟩, ⟨.str "large", .str "source-1", .int 20⟩,
      ⟨.str "small", .str "source-2", .int 10⟩], .str "large",
    ["Value from source-0 (priority 20) overriding 1 lower priority value(s) at config.sku"]⟩

theorem agreed_size_is_settled : strictMerger.strict = true ∧ agreedTrace.SettledByPriority :=
  ⟨rfl, Merger.strict_merge_settles_ties (m := strictMerger) rfl rfl (.inl rfl : Fits .str _ [])
    (fits_pairOnTop (rfl : agreedConfigs.length = 3)) rfl
    (List.mem_singleton.2 rfl : agreedTrace ∈ [agreedTrace]) rfl⟩

/-- Every source wants another size, two of them with the highest
priority. -/
def disputedConfigs : List Fields :=
  [[("sku", .str "a")], [("sku", .str "b")], [("sku", .str "c")]]

/-- How the size that all dispute was settled. -/
def disputedTrace : Trace :=
  ⟨.str "config.sku", .priority,
    [⟨.str "a", .str "source-0", .int 20⟩, ⟨.str "b", .str "source-1", .int 20⟩,
      ⟨.str "c", .str "source-2", .int 10⟩], .str "a",
    ["Conflict at config.sku: Multiple sources with priority 20 have different values. " ++
      "Using value from source-0. Conflicting sources: source-0, source-1",
      "Value from source-0 (priority 20) overriding 1 lower priority value(s) at config.sku"]⟩

/-- A strict merge can settle a tie between inputs that disagree by their
order. -/
theorem outranked_tie_is_decided :
    ¬ ∀ (m : Merger) (configs : List Fields) (sources priorities : List Value) (merged : Merged)
        (t : Trace), m.strict = true → m.customs = {} → Fits .str configs.length sources →
      Fits .int configs.length priorities →
      (m.mergeConfigs (configs.map .object) sources priorities).result = .ok merged →
      t ∈ (m.traced.mergeConfigs (configs.map .object) sources priorities).traces →
      t.strategy = .priority → t.Unanimous := by
  intro h
  have hunanimous : disputedTrace.Unanimous :=
    h strictMerger disputedConfigs [] pairOnTop _ disputedTrace rfl rfl (.inl rfl)
      (fits_pairOnTop rfl) rfl (List.mem_singleton.2 rfl : disputedTrace ∈ [disputedTrace]) rfl
  have htop : ∀ v source, (⟨v, source, .int 20⟩ : Contribution) ∈ disputedTrace.inputs →
      disputedTrace.HasTop ⟨v, source, .int 20⟩ := by
    intro v source hmem
    refine ⟨hmem, ?_⟩
    intro d hd
    simp only [disputedTrace, List.mem_cons, List.not_mem_nil, or_false] at hd
    rcases hd with rfl | rfl | rfl
    · rfl
    · rfl
    · rfl
  have hkeys := hunanimous _ _ (htop (.str "a") (.str "source-0") (by simp [disputedTrace]))
    (htop (.str "b") (.str "source-1") (by simp [disputedTrace]))
  exact absurd hkeys (by decide)

end Depot.Merge
