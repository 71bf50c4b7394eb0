/-
The conflicts between the shares at one path. Shares can differ in three
ways: in the kinds of their values, in the identities of their values, and
in their ranks. A difference of kinds is never resolvable
(`typeConflicts_shares`). A difference of values is resolvable unless all
ranks are level, whichever ranks the values that differ have
(`valueConflicts_shares`). To look for one the values have to be written.
-/
import Depot.Merge.Conflict
import Depot.Proofs.Merge.Share
import Depot.Proofs.Value.Order

namespace Depot.Merge

variable {shares : List Share} {path : String}

-- ========================================================= differences

/-- The values have one kind. -/
def SameKind (shares : List Share) : Prop :=
  ∀ s ∈ shares, ∀ t ∈ shares, s.value.kind = t.value.kind

/-- The values have one wire text, and so one identity if they can be
written. -/
def Agree (shares : List Share) : Prop :=
  ∀ s ∈ shares, ∀ t ∈ shares, s.value.wire = t.value.wire

/-- Shares that do not agree have different values. -/
theorem exists_of_not_agree (h : ¬ Agree shares) :
    ∃ s ∈ shares, ∃ t ∈ shares, s.value ≠ t.value := by
  by_contra hsame
  push Not at hsame
  exact h fun s hs t ht => congrArg Value.wire (hsame s hs t ht)

/-- The shares have one rank. -/
def Level (shares : List Share) : Prop := ∀ s ∈ shares, ∀ t ∈ shares, s.rank = t.rank

/-- The shares at a path that is given. -/
def Given (shares : List Share) : Prop := ∀ s ∈ shares, s.value ≠ .null

/-- Below a key nothing is null. -/
theorem given_below (shares : List Share) (key : String) : Given (below shares key) :=
  fun _ => ne_null_of_mem_below

/-- There are not two different items iff any two are equal. -/
theorem length_eraseDups_lt_two {α : Type} [BEq α] [LawfulBEq α] (xs : List α) :
    xs.eraseDups.length < 2 ↔ ∀ x ∈ xs, ∀ y ∈ xs, x = y := by
  have hmem : ∀ {x}, x ∈ xs.eraseDups ↔ x ∈ xs := List.mem_eraseDups
  have hnodup := nodup_eraseDups xs
  constructor
  · intro hlen x hx y hy
    have hx' := hmem.2 hx
    have hy' := hmem.2 hy
    match hds : xs.eraseDups with
    | [] => rw [hds] at hx'; cases hx'
    | [z] =>
        rw [hds, List.mem_singleton] at hx' hy'
        rw [hx', hy']
    | _ :: _ :: _ =>
        rw [hds, List.length_cons, List.length_cons] at hlen
        omega
  · intro h
    match hds : xs.eraseDups with
    | [] => simp
    | [_] => simp
    | y :: z :: zs =>
        rw [hds] at hnodup hmem
        have hyz : y = z := h y (hmem.1 (by simp)) z (hmem.1 (by simp))
        simp [hyz] at hnodup

/-- Whole numbers are told apart as values. -/
theorem distinctValues_ints (ns : List Int) :
    ∃ ks : List Int, distinctValues (ns.map .int) = .ok (ks.map .int) ∧ ks.Nodup
      ∧ ∀ n, n ∈ ks ↔ n ∈ ns := by
  induction ns with
  | nil => exact ⟨[], rfl, List.nodup_nil, fun _ => Iff.rfl⟩
  | cons n ns ih =>
      obtain ⟨ks, hks, hnodup, hmem⟩ := ih
      refine ⟨n :: ks.filter (· ≠ n), ?_, ?_, ?_⟩
      · rw [List.map_cons, distinctValues, hks, List.map_cons]
        show Except.ok (Value.int n :: (ks.map Value.int).filter _) = _
        rw [List.filter_map]
        simp only [Function.comp_def, Value.same_ints, decide_not]
      · refine List.nodup_cons.2 ⟨?_, hnodup.filter _⟩
        simp
      · intro k
        by_cases hk : k = n
        · simp [hk]
        · simp [hk, hmem]

/-- The ranks as one list of values count as one iff they are level. -/
theorem distinctValues_ranks (hne : shares ≠ []) :
    ∃ vs, distinctValues (shares.map fun s => .int s.rank) = .ok vs
      ∧ (vs.length = 1 ↔ Level shares) := by
  obtain ⟨ks, hks, hnodup, hmem⟩ := distinctValues_ints (shares.map Share.rank)
  rw [List.map_map] at hks
  have hranks : ∀ {n}, n ∈ ks ↔ ∃ s ∈ shares, s.rank = n := by
    intro n
    rw [hmem, List.mem_map]
  refine ⟨_, hks, ?_⟩
  rw [List.length_map]
  constructor
  · intro hlen s hs t ht
    obtain ⟨k, rfl⟩ := List.length_eq_one_iff.1 hlen
    have hs' := List.mem_singleton.1 (hranks.2 ⟨s, hs, rfl⟩)
    have ht' := List.mem_singleton.1 (hranks.2 ⟨t, ht, rfl⟩)
    rw [hs', ht']
  · intro hlevel
    match ks with
    | [] =>
        obtain ⟨s, hs⟩ := List.exists_mem_of_ne_nil shares hne
        have := hranks.2 ⟨s, hs, rfl⟩
        cases this
    | [_] => rfl
    | k :: l :: ks =>
        obtain ⟨s, hs, hsk⟩ := hranks.1 (show k ∈ k :: l :: ks by simp)
        obtain ⟨t, ht, htl⟩ := hranks.1 (show l ∈ k :: l :: ks by simp)
        have hkl : k = l := by rw [← hsk, ← htl, hlevel s hs t ht]
        simp [hkl] at hnodup

-- =========================================================== conflicts

/-- All values that are given count in a conflict. -/
theorem filter_given (hgiven : Given shares) :
    (shares.filter fun s => !s.value.isNull) = shares := by
  refine List.filter_eq_self.2 fun s hs => ?_
  have hne := hgiven s hs
  cases hv : s.value with
  | null => exact absurd hv hne
  | _ => rfl

theorem filter_values (hgiven : Given shares) :
    ((shares.map Share.value).filter fun v => !v.isNull) = shares.map Share.value := by
  rw [List.filter_map]
  exact congrArg (List.map Share.value) (filter_given hgiven)

/-- The conflict is one between the shares at a path. -/
structure Conflict.Concerns (path : String) (shares : List Share) (c : Conflict) : Prop where
  path : c.path = .str path
  values : c.values = shares.map Share.contribution
  reason : ∃ text, c.reason = .str text

-- ============================================================= reports

/-- The values that the lines of a conflict show. -/
def Conflict.shown (c : Conflict) : List Value :=
  c.path :: c.reason :: c.values.flatMap fun v => [v.source, v.value]

/-- The values that the lines of an issue show. -/
def Issue.shown (i : Issue) : List Value :=
  i.path :: ((if i.actual.isNull then [] else [i.actual])
    ++ if i.expected.isTruthy then [i.expected] else [])

/-- The values that the failure of a result shows. -/
def Merged.shown (result : Merged) : List Value :=
  result.unresolvable.flatMap Conflict.shown ++ result.errors.flatMap Issue.shown

/-- The lines of a conflict are there if the values it shows can be written. -/
theorem Conflict.shows_lines (c : Conflict) : Value.Shows c.shown c.lines := by
  have hline : ∀ v : Contribution, Value.Shows [v.source, v.value] v.line := fun v =>
    (Value.Shows.written v.source _).bind fun source =>
      (Value.Shows.written v.value _).map fun value => s!"    {source}: {value}"
  have hrest : Value.Shows (c.values.flatMap fun v => [v.source, v.value])
      (c.values.mapM Contribution.line) := Value.Shows.mapM hline c.values
  exact (Value.Shows.written c.path _).bind fun path =>
    (Value.Shows.written c.reason _).bind fun reason =>
      hrest.map fun lines => s!"  - {path}: {reason}" :: lines

/-- The lines of an issue are there if the values it shows can be written. -/
theorem Issue.shows_lines (i : Issue) : Value.Shows i.shown i.lines := by
  have hactual : Value.Shows (if i.actual.isNull then [] else [i.actual]) i.actualLines := by
    unfold Issue.actualLines
    split
    · exact Value.Shows.ok []
    · exact (Value.Shows.written i.actual _).map fun text => [s!"    Actual: {text}"]
  have hexpected : Value.Shows (if i.expected.isTruthy then [i.expected] else [])
      i.expectedLines := by
    unfold Issue.expectedLines
    cases i.expected.isTruthy with
    | true => exact (Value.Shows.written i.expected _).map fun text => [s!"    Expected: {text}"]
    | false => exact Value.Shows.ok []
  exact (Value.Shows.written i.path _).bind fun path =>
    hactual.bind fun actual => hexpected.map fun expected =>
      s!"  - {path}: {i.message}" :: actual ++ expected

/-- A report is there if all that its items show can be written. -/
theorem shows_reportLines {α : Type} {shown : α → List Value}
    {lines : α → Except Fault (List String)} (h : ∀ item, Value.Shows (shown item) (lines item))
    (title : String) (items : List α) :
    Value.Shows (items.flatMap shown) (reportLines title lines items) := by
  unfold reportLines
  rw [flatMapM_eq]
  cases items with
  | nil => exact Value.Shows.ok []
  | cons item items =>
      exact ((Value.Shows.mapM h (item :: items)).map List.flatten).map (title :: ·)

/-- The text of a failure takes that all it shows can be written. -/
theorem Merged.shows_failureText (result : Merged) :
    Value.Shows result.shown (failureText result.unresolvable result.errors) :=
  (shows_reportLines Conflict.shows_lines _ result.unresolvable).bind fun conflictLines =>
    (shows_reportLines Issue.shows_lines _ result.errors).map fun errorLines =>
      "\n".intercalate (conflictLines ++ errorLines)

/-- A strict merge fails as a merge if all that its failure shows can be
written, and else for want of that text. -/
theorem Merged.failure_cases (result : Merged) (configs : List Value) :
    (result.failure configs).kind? = some .merge
      ∨ result.failure configs = Written.tooLongToWrite
        ∧ ¬(Value.list result.shown).isWritable = true := by
  obtain ⟨text, htext⟩ := result.shows_failureText
  unfold Merged.failure
  rw [htext]
  cases hshown : (Value.list result.shown).isWritable with
  | true =>
      rw [Value.written_of_writable hshown]
      exact .inl rfl
  | false =>
      rw [Value.written_of_not_writable hshown]
      exact .inr ⟨rfl, Bool.false_ne_true⟩

/-- A conflict between shares that can be written can be shown. -/
theorem Conflict.Concerns.shown_writable {c : Conflict} (h : c.Concerns path shares)
    (hwritable : Writable shares) : (Value.list c.shown).isWritable = true := by
  obtain ⟨text, hreason⟩ := h.reason
  have hvalues : ∀ v ∈ c.values.flatMap fun v => [v.source, v.value], v.isWritable = true := by
    rw [h.values, List.flatMap_map, List.forall_mem_flatMap]
    rintro s hs v (_ | ⟨_, _ | ⟨_, ⟨⟩⟩⟩)
    · rfl
    · exact hwritable.values s hs
  unfold Conflict.shown
  rw [h.path, hreason]
  exact Value.isWritable_list_iff.2
    (List.forall_mem_cons.2 ⟨rfl, List.forall_mem_cons.2 ⟨rfl, hvalues⟩⟩)

/-- Values at a path that is given are searched for kinds, and only kinds
that differ are a conflict. -/
theorem typeConflicts_shares (path : String) (hgiven : Given shares) :
    ∃ conflicts, typeConflicts (shares.map Share.value) (context path shares) = .ok conflicts
      ∧ ((∀ c ∈ conflicts, c.resolvable = true) ↔ SameKind shares)
      ∧ (conflicts = [] ↔ SameKind shares) ∧ ∀ c ∈ conflicts, c.Concerns path shares := by
  have hfew : ((shares.map fun s => s.value.kind).eraseDups.length < 2) ↔ SameKind shares := by
    rw [length_eraseDups_lt_two]
    simp [SameKind]
  unfold typeConflicts
  simp only [filter_values hgiven, List.map_map, Function.comp_def]
  by_cases hkind : SameKind shares
  · rw [if_pos (hfew.2 hkind)]
    exact ⟨[], rfl, by simp [hkind], by simp [hkind], by simp⟩
  · rw [if_neg (mt hfew.1 hkind), contributions_all]
    exact ⟨_, rfl, by simp [hkind], by simp [hkind],
      List.forall_mem_singleton.2 ⟨rfl, rfl, _, rfl⟩⟩

/-- Values that can be written are searched for differences; these are
resolvable unless the ranks are level. -/
theorem valueConflicts_shares (path : String) (hgiven : Given shares) (hne : shares ≠ []) :
    Answers (Writable shares) (valueConflicts (shares.map Share.value) (context path shares))
      fun conflicts =>
        ((∀ c ∈ conflicts, c.resolvable = true) ↔ (Level shares → Agree shares))
          ∧ (conflicts = [] ↔ Agree shares) ∧ ∀ c ∈ conflicts, c.Concerns path shares := by
  have hfew : ((shares.map fun s => s.value.wire).eraseDups.length < 2) ↔ Agree shares := by
    rw [length_eraseDups_lt_two]
    simp [Agree]
  obtain ⟨ranks, hranks, hlevel⟩ := distinctValues_ranks hne
  have hkeys : (shares.map Share.contribution).mapM (fun e => e.value.key)
      = (Value.list (shares.map Share.value)).written (shares.map fun s => s.value.wire) := by
    have hwalk := Value.mapM_written Value.wire (shares.map Share.value)
    rw [List.mapM_map, List.map_map] at hwalk
    rw [List.mapM_map]
    exact hwalk
  have hpriorities : (shares.map Share.contribution).map Contribution.priority
      = shares.map fun s => .int s.rank := by
    rw [List.map_map]
    rfl
  obtain ⟨first, rest, rfl⟩ := List.exists_cons_of_ne_nil hne
  unfold valueConflicts
  rw [contributions_chosen path _ fun v => !v.isNull, filter_given hgiven]
  refine .bind_ok rfl ?_
  show Answers _ (((first :: rest).map Share.contribution).mapM (fun e => e.value.key) >>= _) _
  rw [hkeys, hpriorities]
  refine .bind_written Writable.list ?_
  by_cases hagree : Agree (first :: rest)
  · rw [if_pos (hfew.2 hagree)]
    exact .ok ⟨by simp [hagree], by simp [hagree], by simp⟩
  · rw [if_neg (mt hfew.1 hagree)]
    refine .bind_ok hranks ?_
    by_cases htied : ranks.length = 1
    · rw [if_pos htied]
      have hfirst : Writable (first :: rest) → (Value.int first.rank).isWritable = true :=
        fun h => h.ranks (exists_of_not_agree hagree) first (by simp)
      refine .bind_written hfirst (.ok ?_)
      exact ⟨by simp [hlevel.1 htied, hagree, htied], by simp [hagree],
        List.forall_mem_singleton.2 ⟨rfl, rfl, _, rfl⟩⟩
    · rw [if_neg htied]
      exact .ok ⟨by simp [mt hlevel.2 htied, htied], by simp [hagree],
        List.forall_mem_singleton.2 ⟨rfl, rfl, _, rfl⟩⟩

end Depot.Merge
