/-
Sources and priorities that do not fit the configurations. A merge takes
three lists that belong together position by position and does not ask
whether they are of one length. One that is too long is never read to its
end. One that is too short ends the merge where a position is missing, and
no handler of a single property catches that; so a merge that returns read
nothing but positions that are there, and what stands at the others is
free (`Merger.result_of_covered`). Every merge that returns is therefore
one whose lists fit (`Merger.exists_root_of_ok`).
-/
import Depot.Proofs.Merge.Run

namespace Depot.Merge

-- ================================================= results that comply

/-- A result is another one, or a fault that nothing in a merge catches. -/
def Complies {α : Type} (r r' : Except Fault α) : Prop :=
  r = r' ∨ ∃ fault : Fault, fault.isDroppable = false ∧ r = .error fault

namespace Complies

variable {α β : Type} {r r' : Except Fault α}

theorem refl (r : Except Fault α) : Complies r r := .inl rfl

/-- Results that comply go on to results that comply. -/
theorem bind {f f' : α → Except Fault β} (h : Complies r r') (hf : ∀ a, Complies (f a) (f' a)) :
    Complies (r >>= f) (r' >>= f') := by
  obtain rfl | ⟨fault, hfault, rfl⟩ := h
  · cases r with
    | error fault => exact .refl _
    | ok a => exact hf a
  · exact .inr ⟨fault, hfault, rfl⟩

/-- Results for each of some items comply if each of them does. -/
theorem mapM {γ : Type} {f f' : γ → Except Fault α} (xs : List γ)
    (h : ∀ x ∈ xs, Complies (f x) (f' x)) : Complies (xs.mapM f) (xs.mapM f') := by
  induction xs with
  | nil => exact .refl _
  | cons x xs ih =>
      rw [List.mapM_cons, List.mapM_cons]
      exact (h x (by simp)).bind fun y =>
        (ih fun z hz => h z (by simp [hz])).bind fun ys => .refl _

end Complies

-- =================================================== steps that comply

/-- A step does what another one does, or ends in a fault that nothing in a
merge catches. -/
def Step.Complies {α : Type} (step step' : Step α) : Prop :=
  ∀ l, step.run.run l = step'.run.run l
    ∨ ∃ fault l', fault.isDroppable = false ∧ step.run.run l = (.error fault, l')

namespace Step.Complies

variable {α β : Type} {step step' : Step α}

theorem refl (step : Step α) : step.Complies step := fun _ => .inl rfl

/-- Steps that comply go on to steps that comply. -/
theorem bind {k k' : α → Step β} (h : step.Complies step') (hk : ∀ a, (k a).Complies (k' a)) :
    (step >>= k).Complies (step' >>= k') := by
  intro l
  rw [bind_run, bind_run]
  obtain hsame | ⟨fault, l', hfault, hfails⟩ := h l
  · rw [hsame]
    obtain ⟨r, l'⟩ := step'.run.run l
    cases r with
    | error fault => exact .inl rfl
    | ok a => exact hk a l'
  · rw [hfails]
    exact .inr ⟨fault, l', hfault, rfl⟩

theorem ofExcept {r r' : Except Fault α} (h : Merge.Complies r r') :
    (Step.ofExcept r).Complies (Step.ofExcept r') := by
  intro l
  obtain rfl | ⟨fault, hfault, rfl⟩ := h
  · exact .inl rfl
  · exact .inr ⟨fault, l, hfault, rfl⟩

/-- Leaving a property out does not hide a fault of this kind. -/
theorem orDropped (path : Value) (h : step.Complies step') :
    (Step.orDropped path step).Complies (Step.orDropped path step') := by
  intro l
  unfold Step.orDropped
  rw [ExceptT.run_mk, ExceptT.run_mk, StateT.run_bind, StateT.run_bind]
  obtain hsame | ⟨fault, l', hfault, hfails⟩ := h l
  · rw [hsame]
    exact .inl rfl
  · rw [hfails]
    refine .inr ⟨fault, l', hfault, ?_⟩
    show StateT.run (if fault.isDroppable then _ else _) l' = _
    rw [hfault]
    rfl

end Step.Complies

-- ===================================================== covered contexts

/-- A context has at its first positions what another one has there, or
nothing. -/
structure Context.Covered (count : Nat) (ctx ctx' : Context) : Prop where
  path : ctx.path = ctx'.path
  sources : ∀ i < count, Complies (ctx.sourceAt i) (ctx'.sourceAt i)
  priorities : ∀ i < count, Complies (ctx.priorityAt i) (ctx'.priorityAt i)

/-- What is given under a key is given by one of the mappings. -/
theorem given_lt {objects : List Fields} {key : String} {e : Value × Nat}
    (h : e ∈ given objects key) : e.2 < objects.length := by
  obtain ⟨o, ho, rfl⟩ := List.mem_map.1 (List.mem_filter.1 h).1
  have hat : objects[o.2]? = some o.1 := List.mem_zipIdx_iff_getElem?.1 ho
  exact (List.getElem?_eq_some_iff.1 hat).1

/-- Under a covered context the entries merge as under the covering one. -/
theorem mergeEntries_complies {mergeOne : List Value → Context → Step Value}
    {objects : List Fields} {ctx ctx' : Context} (h : ctx.Covered objects.length ctx')
    (keys : List String) :
    (Merger.mergeEntries mergeOne objects ctx keys).Complies
      (Merger.mergeEntries mergeOne objects ctx' keys) := by
  have hpath : ∀ key, ctx.below key = ctx'.below key := by
    intro key
    unfold Context.below
    rw [h.path]
  have hnarrow : ∀ key, Complies
      (ctx.narrow (ctx'.below key) ((given objects key).map Prod.snd))
      (ctx'.narrow (ctx'.below key) ((given objects key).map Prod.snd)) := by
    intro key
    have hlt : ∀ i ∈ (given objects key).map Prod.snd, i < objects.length := by
      intro i hi
      obtain ⟨e, he, rfl⟩ := List.mem_map.1 hi
      exact given_lt he
    exact (Complies.mapM _ fun i hi => h.sources i (hlt i hi)).bind fun _ =>
      (Complies.mapM _ fun i hi => h.priorities i (hlt i hi)).bind fun _ => .refl _
  induction keys with
  | nil => exact .refl _
  | cons key keys ih =>
      rw [mergeEntries_cons, mergeEntries_cons]
      refine .bind ?_ fun here => ih.bind fun rest => .refl _
      have hkey := hnarrow key
      unfold mergeKey
      rw [hpath key]
      match hgiven : given objects key with
      | [] => exact .refl _
      | [e] => exact .refl _
      | e :: e' :: rest =>
          rw [hgiven] at hkey
          exact .orDropped _ ((Step.Complies.ofExcept hkey).bind fun _ => .refl _)

/-- Under a covered context a value merges as under the covering one. -/
theorem mergeAll_complies {m : Merger} {configs : List Fields} {ctx ctx' : Context}
    (h : ctx.Covered configs.length ctx') :
    (m.mergeAll (configs.map .object) ctx).Complies (m.mergeAll (configs.map .object) ctx') := by
  unfold Merger.mergeAll
  rw [asMappings_objects]
  exact mergeEntries_complies h (allKeys configs)

-- ======================================================== whole merges

/-- A merge that returns would return the same if positions that it does
not have were filled in, or positions that it does not need were
dropped. -/
theorem Merger.result_of_covered {m : Merger} {configs : List Fields}
    {sources sources' priorities priorities' : List Value}
    (h : (Merger.rootContext configs.length sources priorities).Covered configs.length
      (Merger.rootContext configs.length sources' priorities'))
    {merged : Merged}
    (hok : (m.mergeConfigs (configs.map .object) sources priorities).result = .ok merged) :
    (m.mergeConfigs (configs.map .object) sources' priorities').result = .ok merged := by
  unfold Merger.mergeConfigs Merger.conclude at hok ⊢
  rw [List.length_map] at hok ⊢
  obtain hsame | ⟨fault, l, -, hfails⟩ := mergeAll_complies (m := m) h {}
  · have hrun : (m.mergeAll (configs.map .object)
          (Merger.rootContext configs.length sources priorities)).run {}
        = (m.mergeAll (configs.map .object)
          (Merger.rootContext configs.length sources' priorities')).run {} := hsame
    dsimp only at hok ⊢
    rw [hrun] at hok
    rcases hran : (m.mergeAll (configs.map .object)
      (Merger.rootContext configs.length sources' priorities')).run {} with ⟨config, ledger⟩
    -- all that is left of the two contexts is the sources that are reported
    rw [hran] at hok
    dsimp only at hok ⊢
    split at hok
    · cases hok
    · exact hok
  · have hrun : (m.mergeAll (configs.map .object)
        (Merger.rootContext configs.length sources priorities)).run {} = (.error fault, l) := hfails
    dsimp only at hok
    rw [hrun] at hok
    cases hok

/-- A longer list gives the same wherever the shorter one gives something. -/
theorem complies_itemAt_append (xs ys : List Value) (i : Nat) :
    Complies (Value.itemAt xs i) (Value.itemAt (xs ++ ys) i) := by
  unfold Value.itemAt
  cases hx : xs[i]? with
  | none => exact .inr ⟨_, rfl, rfl⟩
  | some v =>
      rw [List.getElem?_append_left (List.getElem?_eq_some_iff.1 hx).1, hx]
      exact .refl _

/-- A list of sources or priorities made to fit: missing, or cut and filled
to one for each configuration. -/
def fitted {α : Type} (count : Nat) (filler : α) (xs : List α) : List α :=
  if xs.isEmpty then [] else (xs ++ List.replicate count filler).take count

/-- A list that is made to fit does. -/
theorem fits_fitted {α : Type} (f : α → Value) (count : Nat) (filler : α) (xs : List α) :
    Fits f count ((fitted count filler xs).map f) := by
  unfold fitted
  split
  · exact .inl rfl
  · refine .inr ⟨_, ?_, rfl⟩
    rw [List.length_take, List.length_append, List.length_replicate]
    omega

/-- A list that fits already is left alone. -/
theorem fitted_of_length {α : Type} {count : Nat} {xs : List α} (filler : α)
    (h : xs.length = count) : fitted count filler xs = xs := by
  unfold fitted
  split
  · next hempty => exact (List.isEmpty_iff.1 hempty).symm
  · rw [← h, List.take_left]

/-- A list made to fit has nothing but what it had and what fills it. -/
theorem mem_fitted {α : Type} {count : Nat} {filler x : α} {xs : List α}
    (h : x ∈ fitted count filler xs) : x ∈ xs ∨ x = filler := by
  unfold fitted at h
  split at h
  · cases h
  · rcases List.mem_append.1 (List.mem_of_mem_take h) with hx | hx
    · exact .inl hx
    · exact .inr (List.eq_of_mem_replicate hx)

/-- Configurations and priorities that can be written are writable shares,
also when the priorities are made to fit. -/
theorem Shared.writable_fitted {shares : List Share} {configs : List Fields} {sources : List Value}
    {priorities : List Int}
    (h : Shared configs sources ((fitted configs.length 0 priorities).map .int) shares)
    (hconfigs : ∀ c ∈ configs, (Value.object c).isWritable = true)
    (hpriorities : ∀ p ∈ priorities, Written.isWritable p = true) : Writable shares := by
  refine h.writable hconfigs (List.forall_mem_map.2 fun p hp => ?_)
  rcases mem_fitted hp with hp | rfl
  · exact hpriorities p hp
  · decide

/-- What counts for a position does so in a list made to fit, too. -/
theorem complies_fitted {α : Type} (f : α → Value) {i count : Nat} (hi : i < count) (filler : α)
    (xs : List α) (fallback : List Value) :
    Complies (Value.itemAt (if (xs.map f).isEmpty then fallback else xs.map f) i)
      (Value.itemAt (if ((fitted count filler xs).map f).isEmpty then fallback
        else (fitted count filler xs).map f) i) := by
  cases xs with
  | nil => exact .refl _
  | cons x xs =>
      have hsome : fitted count filler (x :: xs)
          = ((x :: xs) ++ List.replicate count filler).take count := rfl
      have hne : ¬ ((fitted count filler (x :: xs)).map f).isEmpty = true := by
        rw [hsome]
        cases count with
        | zero => omega
        | succ count => simp
      rw [if_neg hne, if_neg (by simp), hsome, List.map_take, Value.itemAt_take hi, List.map_append]
      exact complies_itemAt_append _ _ i

/-- The context of the lists is covered by the context of the fitted ones. -/
theorem covered_fitted (count : Nat) (sources : List String) (priorities : List Int) :
    (Merger.rootContext count (sources.map .str) (priorities.map .int)).Covered count
      (Merger.rootContext count ((fitted count "" sources).map .str)
        ((fitted count 0 priorities).map .int)) where
  path := rfl
  sources _ hi := complies_fitted .str hi "" sources _
  priorities _ hi := complies_fitted .int hi 0 priorities _

/-- A merge that returns is the merge of some shares, whatever the lengths
of its lists. -/
theorem Merger.exists_root_of_ok {m : Merger} (hcustoms : m.customs = {}) {configs : List Fields}
    {sources : List String} {priorities : List Int} {merged : Merged}
    (hok : (m.mergeConfigs (configs.map .object) (sources.map .str)
      (priorities.map .int)).result = .ok merged) :
    ∃ sources' shares fs notes,
      Root m configs sources' ((fitted configs.length 0 priorities).map .int) shares fs notes
      ∧ (m.mergeConfigs (configs.map .object) sources'
        ((fitted configs.length 0 priorities).map .int)).result = .ok merged := by
  obtain ⟨shares, hshared⟩ := exists_shared (fits_fitted .str configs.length "" sources)
    (fits_fitted .int configs.length 0 priorities)
  obtain ⟨fs, notes, hroot⟩ := hshared.root m.default
  exact ⟨_, shares, fs, notes, hroot m ⟨hcustoms, rfl⟩,
    Merger.result_of_covered (covered_fitted configs.length sources priorities) hok⟩

end Depot.Merge
