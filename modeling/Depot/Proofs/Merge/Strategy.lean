/-
The strategies on shares. A strategy that fits the values succeeds, and
its value is known: the union has every item of the lists once, by
identity; the intersection has the items of the first list that all have;
an extreme is a value that no other surpasses; and priority takes the
value of the earliest share of the highest rank. Of what a strategy says in
its warnings only one thing matters here: it is never that a property was
left out, which is for the merge around it to say (`Keeping`).
-/
import Depot.Merge.Strategy
import Depot.Proofs.Merge.Share
import Depot.Proofs.Value.Occurrence
import Depot.Proofs.Value.Order

namespace Depot

namespace Value

/-- The items of a list; none where there is no list. -/
def listed (v : Value) : List Value := v.items?.getD []

end Value

namespace Merge

variable {shares : List Share} {path : String}

-- ============================================================ warnings

/-- The text reports that a property was left out. -/
def ReportsDrop (w : String) : Prop := "Failed to merge property".toList <+: w.toList

/-- The warning about a dropped property reports the drop. -/
theorem reportsDrop_droppedProperty (path : Value) (fault : Fault) :
    ReportsDrop (droppedProperty path fault) := by
  unfold ReportsDrop droppedProperty
  simp [String.toList_append, toString]

/-- A text that begins with another letter is no such report. -/
theorem not_reportsDrop {w : String} {c : Char} (h : w.toList.head? = some c) (hc : c ≠ 'F') :
    ¬ ReportsDrop w := by
  rintro ⟨rest, hw⟩
  rw [← hw] at h
  injection h with h
  exact hc h.symm

/-- None of the texts reports that a property was left out. -/
def Keeping (warnings : List String) : Prop := ∀ w ∈ warnings, ¬ ReportsDrop w

namespace Keeping

theorem nil : Keeping [] := fun _ h => by cases h

theorem cons {w : String} {ws : List String} (hw : ¬ ReportsDrop w) (hws : Keeping ws) :
    Keeping (w :: ws) := by
  rintro u (_ | ⟨_, hu⟩)
  · exact hw
  · exact hws u hu

theorem append {ws ws' : List String} (h : Keeping ws) (h' : Keeping ws') :
    Keeping (ws ++ ws') := fun w hw => (List.mem_append.1 hw).elim (h w) (h' w)

/-- One text that begins with another letter. -/
theorem single {w : String} {c : Char} (h : w.toList.head? = some c) (hc : c ≠ 'F') :
    Keeping [w] := .cons (not_reportsDrop h hc) .nil

end Keeping

-- =============================================================== lists

/-- The shares hold lists. -/
def Listed (shares : List Share) : Prop := ∀ s ∈ shares, s.value.items?.isSome = true

theorem eq_list_of_listed {v : Value} (h : v.items?.isSome = true) : v = .list v.listed := by
  cases v with
  | list xs => rfl
  | _ => cases h

theorem iterate_listed {v : Value} (h : v.items?.isSome = true) : v.iterate = .ok v.listed := by
  rw [eq_list_of_listed h]
  rfl

/-- Distinct items are first occurrences that were not seen before. -/
theorem distinctItems_eq_filter (seen : List String) (items : List Value) :
    distinctItems seen (items.map fun v => (v.wire, v))
      = (Value.firstOccurrences items).filter fun v => v.wire ∉ seen := by
  induction items generalizing seen with
  | nil => rfl
  | cons v items ih =>
      rw [List.map_cons, distinctItems, Value.firstOccurrences]
      by_cases hv : v.wire ∈ seen
      · rw [if_pos hv, ih, List.filter_cons_of_neg (by simpa using hv), List.filter_filter]
        refine List.filter_congr fun w _ => ?_
        by_cases hw : w.ordered = v.ordered
        · have hwire : w.wire = v.wire := (Value.wire_eq_iff w v).2 hw
          simp [hwire, hv]
        · simp [hw]
      · rw [if_neg hv, ih, List.filter_cons_of_pos (by simpa using hv), List.filter_filter]
        refine congrArg _ (List.filter_congr fun w _ => ?_)
        simp [← Value.wire_eq_iff, Bool.and_comm]

theorem distinctItems_nil_eq (items : List Value) :
    distinctItems [] (items.map fun v => (v.wire, v)) = Value.firstOccurrences items := by
  rw [distinctItems_eq_filter]
  simp

/-- A union of lists has every item of theirs once. -/
theorem union_listed {values : List Value} (h : ∀ v ∈ values, v.items?.isSome = true)
    (ctx : Context) : union values ctx
      = (Value.list values).written
          ⟨.list (Value.firstOccurrences (values.flatMap Value.listed)), .union, ctx.sources, []⟩ := by
  have hkeyed : ∀ v ∈ values, keyedItems v
      = v.written (v.listed.map fun item => (item.wire, item)) := by
    intro v hv
    unfold keyedItems
    rw [iterate_listed (h v hv)]
    have hwalk := Value.mapM_written (fun item => (item.wire, item)) v.listed
    rw [← eq_list_of_listed (h v hv)] at hwalk
    rw [← hwalk]
    exact congrArg (v.listed.mapM ·) (funext fun item => Value.map_written item item.wire _)
  have hwalk : values.flatMapM keyedItems = (Value.list values).written
      ((values.flatMap Value.listed).map fun item => (item.wire, item)) := by
    rw [flatMapM_congr hkeyed, Value.flatMapM_written, List.map_flatMap]
  rw [union, hwalk]
  simp only [Value.map_written, distinctItems_nil_eq]

/-- Whether the share's list has an item of a wire text. -/
def Share.lists (s : Share) (key : String) : Bool := s.value.listed.any fun v => v.wire = key

/-- The sources of some shares as a context has them. -/
def sourcesOf (shares : List Share) : List Value := shares.map fun s => .str s.source

theorem sourceAt_sources {ctx : Context} (hsources : ctx.sources = sourcesOf shares) {i : Nat}
    {s : Share} (h : shares[i]? = some s) : ctx.sourceAt i = .ok (.str s.source) := by
  rw [Context.sourceAt, hsources]
  exact Value.itemAt_map _ h

/-- The sources that lack an item are those of the shares that do. -/
theorem lackingSources_shares {ctx : Context} {first : Share} {rest : List Share}
    (hsources : ctx.sources = sourcesOf (first :: rest)) (key : String) :
    lackingSources ctx key (rest.map fun s => s.value.listed.map Value.wire)
      = .ok (sourcesOf (rest.filter fun s => !s.lists key)) := by
  have hothers : (rest.map fun s => s.value.listed.map Value.wire).zipIdx.filter
        (fun e => decide (key ∉ e.1))
      = (chosen (fun s => !s.lists key) rest).map
          fun e => (e.1.value.listed.map Value.wire, e.2) := by
    rw [List.zipIdx_map, List.filter_map]
    refine congrArg _ (List.filter_congr fun e _ => ?_)
    rw [Bool.eq_iff_iff]
    simp [Share.lists, Prod.map]
  show (((rest.map fun s => s.value.listed.map Value.wire).zipIdx.filter
    fun e => decide (key ∉ e.1)).mapM fun e => ctx.sourceAt (e.2 + 1)) = _
  rw [hothers, List.mapM_map]
  refine mapM_chosen fun s i hs => ?_
  have hnext : (first :: rest)[i + 1]? = some s := hs
  exact sourceAt_sources hsources hnext

/-- What is said of an item of one source that another source lacks. -/
def exclusion (path : Value) (key holder lacking : String) : String :=
  let what := s!"Value {key} from {holder} not present in {lacking}"
  s!"{what}, excluding from intersection at {path.label}"

/-- The warnings about excluded items report no drop. -/
theorem keeping_exclusions (path : Value) (holder : String) (lacking : Value → String)
    (vs : List Value) : Keeping (vs.map fun v => exclusion path v.wire holder (lacking v)) := by
  intro w hw
  obtain ⟨v, -, rfl⟩ := List.mem_map.1 hw
  exact not_reportsDrop (c := 'V') (by simp [exclusion, toString]) (by decide)

/-- The source of the first share without an item of a wire text. -/
def lackingSource (rest : List Share) (key : String) : String :=
  ((rest.find? fun s => !s.lists key).map Share.source).getD ""

/-- One item of the first list stays, or is accounted for. -/
theorem keepCommon_cons {ctx : Context} {first : Share} {rest : List Share}
    (hsources : ctx.sources = sourcesOf (first :: rest)) {v : Value} (hv : v.isWritable = true)
    (vs : List Value) :
    let kept := keepCommon ctx (rest.map fun s => s.value.listed.map Value.wire) vs
    keepCommon ctx (rest.map fun s => s.value.listed.map Value.wire) (v :: vs)
      = if rest.all fun s => s.lists v.wire then do
          let (kept, warnings) ← kept
          return (v :: kept, warnings)
        else do
          let (kept, warnings) ← kept
          return (kept, exclusion ctx.path v.wire first.source (lackingSource rest v.wire)
            :: warnings) := by
  intro kept
  have hholder : ctx.sourceAt 0 = .ok (.str first.source) := sourceAt_sources hsources rfl
  rw [keepCommon, Value.key_of_writable hv]
  show (lackingSources ctx v.wire _ >>= _) = _
  rw [lackingSources_shares hsources, hholder]
  cases hlacking : rest.find? fun s => !s.lists v.wire with
  | none =>
      have hall : (rest.all fun s => s.lists v.wire) = true := by
        rw [List.all_eq_true]
        simpa using hlacking
      have hfilter : rest.filter (fun s => !s.lists v.wire) = [] := by
        rw [List.filter_eq_nil_iff]
        simpa using hlacking
      rw [hfilter, if_pos hall]
      rfl
  | some s =>
      obtain ⟨hs, before, after, hrest, hbefore⟩ := List.find?_eq_some_iff_append.1 hlacking
      have hfilter : rest.filter (fun s => !s.lists v.wire)
          = s :: after.filter fun s => !s.lists v.wire := by
        have hnone : before.filter (fun s => !s.lists v.wire) = [] := by
          rw [List.filter_eq_nil_iff]
          simpa using hbefore
        rw [hrest, List.filter_append, hnone, List.nil_append, List.filter_cons, if_pos hs]
      have hnot : ¬ (rest.all fun s => s.lists v.wire) = true := by
        rw [List.all_eq_true]
        intro hall
        have hlists := hall s (by simp [hrest])
        simp [hlists] at hs
      rw [hfilter, if_neg hnot, lackingSource, hlacking]
      rfl

/-- The items stay that all others have, and each of the rest is accounted
for. -/
theorem keepCommon_shares {ctx : Context} {first : Share} {rest : List Share}
    (hsources : ctx.sources = sourcesOf (first :: rest)) (vs : List Value) :
    keepCommon ctx (rest.map fun s => s.value.listed.map Value.wire) vs
      = (Value.list vs).written (vs.filter fun v => rest.all fun s => s.lists v.wire,
          (vs.filter fun v => !rest.all fun s => s.lists v.wire).map fun v =>
            exclusion ctx.path v.wire first.source (lackingSource rest v.wire)) := by
  induction vs with
  | nil => rfl
  | cons v vs ih =>
      unfold Value.written at ih ⊢
      rw [Value.isWritable_list] at ih ⊢
      rw [List.all_cons]
      cases hv : v.isWritable with
      | false =>
          rw [keepCommon, Value.key_of_not_writable hv]
          rfl
      | true =>
          rw [keepCommon_cons hsources hv, ih, Bool.true_and, List.filter_cons, List.filter_cons]
          cases rest.all fun s => s.lists v.wire with
          | true | false => cases vs.all Value.isWritable with
            | true | false => rfl

/-- The items of the first of some lists that all others have. -/
def common : List Share → List Value
  | [] => []
  | first :: rest => first.value.listed.filter fun v => rest.all fun s => s.lists v.wire

/-- What is said where sources have no item in common. -/
def emptied (path : Value) (sources : List String) : String :=
  let names := ", ".intercalate sources
  s!"Intersection at {path.label} resulted in empty list. Sources: {names}"

/-- The warning about an empty intersection reports no drop. -/
theorem keeping_emptied (path : Value) (sources : List String) :
    Keeping [emptied path sources] := by
  unfold emptied
  generalize ", ".intercalate sources = names
  exact .single (c := 'I') (by simp [toString]) (by decide)

/-- An intersection of several lists keeps what all have, and says of each other
item of the first who lacks it. -/
theorem intersection_several {ctx : Context} {first second : Share} {rest : List Share}
    (h : Listed (first :: second :: rest))
    (hsources : ctx.sources = sourcesOf (first :: second :: rest)) :
    intersection ((first :: second :: rest).map Share.value) ctx
      = (Value.list ((first :: second :: rest).map Share.value)).written
        ⟨.list (common (first :: second :: rest)), .intersection, ctx.sources,
          ((first.value.listed.filter fun v => !(second :: rest).all fun s => s.lists v.wire).map
            fun v => exclusion ctx.path v.wire first.source
              (lackingSource (second :: rest) v.wire))
          ++ if (common (first :: second :: rest)).isEmpty then
              [emptied ctx.path ((first :: second :: rest).map Share.source)] else []⟩ := by
  have hfirst := iterate_listed (h first (by simp))
  have hothers : ((second :: rest).map Share.value).mapM
        (fun v => do (← v.iterate).mapM Value.key)
      = (Value.list ((second :: rest).map Share.value)).written
          ((second :: rest).map fun s => s.value.listed.map Value.wire) := by
    have hkeys : ∀ v ∈ (second :: rest).map Share.value,
        (do (← v.iterate).mapM Value.key) = v.written (v.listed.map Value.wire) := by
      intro v hv
      obtain ⟨s, hs, rfl⟩ := List.mem_map.1 hv
      have hlisted := h s (List.mem_cons_of_mem first hs)
      rw [iterate_listed hlisted]
      have hwalk := Value.mapM_written Value.wire s.value.listed
      rwa [← eq_list_of_listed hlisted] at hwalk
    rw [mapM_congr hkeys, Value.mapM_written, List.map_map]
    rfl
  have hkept := keepCommon_shares hsources first.value.listed
  rw [← eq_list_of_listed (h first (by simp))] at hkept
  have hjoin : Value.joinTexts ", " ctx.sources
      = .ok (", ".intercalate ((first :: second :: rest).map Share.source)) := by
    rw [hsources, ← Value.joinTexts_texts, List.map_map]
    rfl
  rw [List.map_cons, List.map_cons] at hothers ⊢
  rw [List.map_cons] at hkept
  unfold intersection
  dsimp only
  rw [hothers, hfirst, hjoin]
  unfold Value.written at hkept ⊢
  rw [Value.isWritable_list (first.value :: _), List.all_cons, ← Value.isWritable_list]
  cases (Value.list (second.value :: rest.map Share.value)).isWritable with
  | false =>
      rw [Bool.and_false]
      rfl
  | true =>
      simp only [if_true, bind, Except.bind, hkept]
      cases first.value.isWritable with
      | false => rfl
      | true =>
          simp only [if_true, Bool.and_self]
          rw [← common]
          split
          · rfl
          · rfl

/-- Between lists intersection decides on the common items, if they can be
written. -/
theorem intersection_shares (path : String) (h : Listed shares) :
    Answers (Writable shares) (intersection (shares.map Share.value) (context path shares))
      fun outcome => outcome.value = .list (common shares) ∧ outcome.strategy = .intersection
        ∧ Keeping outcome.warnings := by
  match shares with
  | [] => exact .ok ⟨rfl, rfl, .nil⟩
  | [s] =>
      have hs := iterate_listed (h s (by simp))
      rw [List.map_singleton, intersection, hs]
      exact .ok ⟨by simp [common], rfl, .nil⟩
  | first :: second :: rest =>
      have hexcluded := keeping_exclusions (.str path) first.source
        (fun v => lackingSource (second :: rest) v.wire)
      rw [intersection_several h rfl]
      refine .written Writable.list ⟨rfl, rfl, (hexcluded _).append ?_⟩
      split
      · exact keeping_emptied _ _
      · exact .nil

-- ============================================================= numbers

/-- The shares hold numbers. -/
def Numeric (shares : List Share) : Prop := ∀ s ∈ shares, s.value.isNumber = true

/-- The walk ends at the best value so far or at one of those ahead, and
nothing that it met is worth more. -/
theorem extremeFrom_numbers {c : Value.Comparison} (hc : c.IsStrict) {best : Value}
    (hbest : best.isNumber = true) {vs : List Value} (hvs : ∀ v ∈ vs, v.isNumber = true)
    (bestAt next : Nat) :
    ∃ i v, extremeFrom c best bestAt next vs = .ok i
      ∧ ((i = bestAt ∧ v = best) ∨ ∃ j, vs[j]? = some v ∧ i = next + j)
      ∧ c.worth best ≤ c.worth v ∧ ∀ w ∈ vs, c.worth w ≤ c.worth v := by
  induction vs generalizing best bestAt next with
  | nil => exact ⟨bestAt, best, rfl, .inl ⟨rfl, rfl⟩, le_refl _, by simp⟩
  | cons u vs ih =>
      have hu : u.isNumber = true := hvs u (by simp)
      have htail : ∀ v ∈ vs, v.isNumber = true := fun v hv => hvs v (by simp [hv])
      have hstep : extremeFrom c best bestAt next (u :: vs)
          = if c.worth best < c.worth u then extremeFrom c u next (next + 1) vs
            else extremeFrom c best bestAt (next + 1) vs := by
        rw [extremeFrom, Value.compare_worth hc hu hbest]
        by_cases hlt : c.worth best < c.worth u
        · simp [hlt, bind, Except.bind]
        · simp [hlt, bind, Except.bind]
      rw [hstep]
      by_cases hlt : c.worth best < c.worth u
      · rw [if_pos hlt]
        obtain ⟨i, v, hrun, hat, hge, hall⟩ := ih hu htail next (next + 1)
        refine ⟨i, v, hrun, .inr ?_, hlt.le.trans hge, ?_⟩
        · rcases hat with ⟨rfl, rfl⟩ | ⟨j, hj, rfl⟩
          · exact ⟨0, rfl, rfl⟩
          · exact ⟨j + 1, hj, by omega⟩
        · rintro w (_ | ⟨_, hw⟩)
          · exact hge
          · exact hall w hw
      · rw [if_neg hlt]
        obtain ⟨i, v, hrun, hat, hge, hall⟩ := ih hbest htail bestAt (next + 1)
        refine ⟨i, v, hrun, ?_, hge, ?_⟩
        · rcases hat with hfirst | ⟨j, hj, rfl⟩
          · exact .inl hfirst
          · exact .inr ⟨j + 1, hj, by omega⟩
        · rintro w (_ | ⟨_, hw⟩)
          · exact (not_lt.1 hlt).trans hge
          · exact hall w hw

/-- An extreme is the value of a share that no other surpasses. -/
theorem extreme_shares (path : String) {c : Value.Comparison} (hc : c.IsStrict)
    (strategy : Strategy) (h : Numeric shares) (hne : shares ≠ []) :
    Answers (Writable shares) (extreme strategy c (shares.map Share.value) (context path shares))
      fun outcome => outcome.strategy = strategy ∧ Keeping outcome.warnings
        ∧ ∃ s ∈ shares, outcome.value = s.value
          ∧ ∀ t ∈ shares, c.worth t.value ≤ c.worth s.value := by
  obtain ⟨first, rest, rfl⟩ := List.exists_cons_of_ne_nil hne
  have hnumbers : ∀ v ∈ rest.map Share.value, v.isNumber = true := by
    intro v hv
    obtain ⟨s, hs, rfl⟩ := List.mem_map.1 hv
    exact h s (by simp [hs])
  obtain ⟨i, v, hrun, hat, hge, hall⟩ :=
    extremeFrom_numbers hc (h first (by simp)) hnumbers 0 1
  have hplace : ∃ s, (first :: rest)[i]? = some s ∧ s.value = v := by
    rcases hat with ⟨rfl, rfl⟩ | ⟨j, hj, rfl⟩
    · exact ⟨first, rfl, rfl⟩
    · rw [List.getElem?_map, Option.map_eq_some_iff] at hj
      obtain ⟨s, hs, hv⟩ := hj
      exact ⟨s, by rwa [Nat.add_comm, List.getElem?_cons_succ], hv⟩
  obtain ⟨s, hs, rfl⟩ := hplace
  have hchosen : (first.value :: rest.map Share.value).getD i first.value = s.value := by
    rw [List.getD_eq_getElem?_getD, ← List.map_cons, List.getElem?_map, hs]
    rfl
  have hmost : ∀ t ∈ first :: rest, c.worth t.value ≤ c.worth s.value := by
    rintro t (_ | ⟨_, ht⟩)
    · exact hge
    · exact hall _ (List.mem_map_of_mem ht)
  have hmem : s ∈ first :: rest := List.mem_of_getElem? hs
  have hothers : Writable (first :: rest) →
      (Value.list ((first.value :: rest.map Share.value).eraseIdx i)).isWritable = true := by
    intro hwritable
    refine Value.isWritable_list_iff.2 fun v hv => ?_
    exact Value.isWritable_list_iff.1 hwritable.list v (List.mem_of_mem_eraseIdx hv)
  have hshown := Value.mapM_written Value.label ((first.value :: rest.map Share.value).eraseIdx i)
  rw [List.map_cons]
  unfold extreme
  refine .bind (.of_eq_ok hrun (rfl : i = i)) fun at0 hat0 => ?_
  subst hat0
  dsimp only
  rw [hchosen]
  split
  · rw [sourceAt_context path hs]
    exact .ok ⟨rfl, .nil, s, hmem, rfl, hmost⟩
  · unfold Value.display
    rw [hshown]
    refine .bind_written hothers (.bind_written (fun hwritable => hwritable.values s hmem) ?_)
    refine .bind_ok (sourceAt_context path hs) ?_
    exact .ok ⟨rfl, .single (c := 'S') (by simp [toString]) (by decide), s, hmem, rfl, hmost⟩

end Merge

end Depot
