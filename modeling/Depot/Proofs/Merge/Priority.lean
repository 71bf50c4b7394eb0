/-
Priority takes the value of the leading item: of those that no other
outranks it is the earliest (`Leading`). Ranks are whatever counts as
numbers, so a rank that is a fraction or a truth value does as well. The
handler knows no items but only three lists, of values, of sources and of
ranks; `priority_of_leading` is about items that have all three.

What the handler looks for besides, equal ranks with different values and
lower ranks that lose, never changes the choice and only ends in warnings.
The lemmas about those searches say that they come to an end wherever the
positions are those of values that can be written.
-/
import Depot.Proofs.Merge.Strategy
import Depot.Proofs.Value.Greatest

namespace Depot

-- ============================================================= leading

section Leading

variable {α β : Type} [LinearOrder β] {items : List α} {best : α} {rank : α → β}

/-- An item stands where the highest rank comes first. -/
def Leading (rank : α → β) (items : List α) (best : α) : Prop :=
  ∃ before after, items = before ++ best :: after
    ∧ (∀ x ∈ before, rank x < rank best) ∧ ∀ x ∈ after, rank x ≤ rank best

namespace Leading

theorem mem (h : Leading rank items best) : best ∈ items := by
  obtain ⟨before, after, rfl, -⟩ := h
  simp

/-- No item has a higher rank than the one that leads. -/
theorem rank_le (h : Leading rank items best) : ∀ x ∈ items, rank x ≤ rank best := by
  obtain ⟨before, after, rfl, hbefore, hafter⟩ := h
  intro x hx
  rcases List.mem_append.1 hx with hx | hx
  · exact (hbefore x hx).le
  · rcases List.mem_cons.1 hx with rfl | hx
    · exact le_refl _
    · exact hafter x hx

/-- Only what the ranks are to each other matters. -/
theorem of_lt_iff {γ : Type} [LinearOrder γ] {rank' : α → γ}
    (hsame : ∀ x y, rank' x < rank' y ↔ rank x < rank y) (h : Leading rank items best) :
    Leading rank' items best := by
  obtain ⟨before, after, rfl, hbefore, hafter⟩ := h
  refine ⟨before, after, rfl, fun x hx => (hsame x best).2 (hbefore x hx), fun x hx => ?_⟩
  rw [← not_lt, hsame, not_lt]
  exact hafter x hx

end Leading

/-- Among some items one leads. -/
theorem exists_leading (rank : α → β) (given : items ≠ []) : ∃ best, Leading rank items best := by
  induction items with
  | nil => exact absurd rfl given
  | cons x items ih =>
      by_cases hnil : items = []
      · exact ⟨x, [], [], by rw [hnil]; rfl, by simp, by simp⟩
      · obtain ⟨best, hbest⟩ := ih hnil
        by_cases hlt : rank x < rank best
        · obtain ⟨before, after, rfl, hbefore, hafter⟩ := hbest
          exact ⟨best, x :: before, after, rfl, List.forall_mem_cons.2 ⟨hlt, hbefore⟩, hafter⟩
        · refine ⟨x, [], items, rfl, by simp, fun y hy => ?_⟩
          exact (hbest.rank_le y hy).trans (not_lt.1 hlt)

end Leading

namespace Merge

-- ============================================================ searches

section Searches

variable {values : List Value} {writable : Prop}

/-- A search for other values answers, and what it finds is there. -/
theorem anyDiffers_answers (hwritable : writable → ∀ v ∈ values, v.isWritable = true) (key : String)
    (positions : List Nat) (h : ∀ i ∈ positions, i < values.length) :
    Answers writable (anyDiffers values key positions)
      fun b => b = true → ∃ v ∈ values, v.wire ≠ key := by
  induction positions with
  | nil => exact .ok Bool.noConfusion
  | cons i positions ih =>
      obtain ⟨hi, hrest⟩ := List.forall_mem_cons.1 h
      rw [anyDiffers]
      refine .bind_ok (Value.itemAt_of_lt hi) ?_
      refine .bind_written (fun hw => hwritable hw _ (List.getElem_mem hi)) ?_
      split
      · next hdiffers => exact .ok fun _ => ⟨_, List.getElem_mem hi, hdiffers⟩
      · exact ih hrest

/-- Listing what is overridden answers, and something is only lost to
another value. -/
theorem overridden_answers (hwritable : writable → ∀ v ∈ values, v.isWritable = true)
    (key : String) {top : Value} (htop : top.Counts) {ranked : List (Value × Nat)}
    (h : ∀ e ∈ ranked, e.1.Counts ∧ e.2 < values.length) :
    Answers writable (overridden values key top ranked)
      fun lost => lost ≠ [] → ∃ v ∈ values, v.wire ≠ key := by
  induction ranked with
  | nil => exact .ok fun hsome => absurd rfl hsome
  | cons e ranked ih =>
      obtain ⟨⟨hrank, hplace⟩, hrest⟩ := List.forall_mem_cons.1 h
      have hdiffers := anyDiffers_answers hwritable key [e.2] (by simpa using hplace)
      have hrest' : ∀ differs : Bool, (differs = true → ∃ v ∈ values, v.wire ≠ key) →
          Answers writable (do
            let others ← overridden values key top ranked
            return if differs then e.2 :: others else others)
            fun lost => lost ≠ [] → ∃ v ∈ values, v.wire ≠ key := by
        intro differs hdiffers
        refine (ih hrest).bind fun others hothers => .ok ?_
        cases differs with
        | true => exact fun _ => hdiffers rfl
        | false => exact hothers
      rw [overridden]
      refine .bind_ok (Value.compare_below hrank htop) ?_
      by_cases hlower : e.1.size < top.size
      · rw [if_pos (decide_eq_true hlower)]
        exact hdiffers.bind hrest'
      · rw [if_neg (by simpa using hlower)]
        exact .bind_ok rfl (hrest' false Bool.noConfusion)

/-- The sources at positions that are there are texts. -/
theorem sources_total (path : Value) (sources : List String) (priorities : List Value)
    {positions : List Nat} (h : ∀ i ∈ positions, i < sources.length) :
    ∃ named : List String,
      positions.mapM (Context.sourceAt ⟨path, sources.map .str, priorities⟩)
        = .ok (named.map .str) := by
  induction positions with
  | nil => exact ⟨[], rfl⟩
  | cons i positions ih =>
      obtain ⟨hi, hrest⟩ := List.forall_mem_cons.1 h
      obtain ⟨named, hnamed⟩ := ih hrest
      have hsource := Value.itemAt_map Value.str (List.getElem?_eq_getElem hi)
      rw [List.mapM_cons, Context.sourceAt, hsource, hnamed]
      exact ⟨sources[i] :: named, rfl⟩

-- neither a tie nor a lower rank changes the choice, only what is said

/-- The warnings about a tie answer and report no drop. -/
theorem tieWarnings_answers {path top : Value} {key source : String} {winner : Nat}
    {sources : List String} {ranks : List Value}
    (hwritable : writable → ∀ v ∈ values, v.isWritable = true)
    (htop : (∃ v ∈ values, v.wire ≠ key) → writable → top.isWritable = true)
    (hsource : Context.sourceAt ⟨path, sources.map .str, ranks⟩ winner = .ok (.str source))
    (hvalues : ∀ e ∈ ranks.zipIdx, e.1.Counts ∧ e.2 < values.length)
    (hsources : ∀ e ∈ ranks.zipIdx, e.1.Counts ∧ e.2 < sources.length) :
    Answers writable (tieWarnings values ⟨path, sources.map .str, ranks⟩ key top winner)
      Keeping := by
  have htied : ∀ {n : Nat}, (∀ e ∈ ranks.zipIdx, e.1.Counts ∧ e.2 < n) →
      ∀ i ∈ (ranks.zipIdx.filter fun e => e.1.same top).map Prod.snd, i < n := by
    intro n h i hi
    obtain ⟨e, he, rfl⟩ := List.mem_map.1 hi
    exact (h e (List.mem_filter.1 he).1).2
  obtain ⟨named, hnamed⟩ := sources_total path sources ranks (htied hsources)
  unfold tieWarnings
  dsimp only
  split
  · exact .ok .nil
  refine (anyDiffers_answers hwritable key _ (htied hvalues)).bind fun tie hdiffers => ?_
  split
  · exact .ok .nil
  next htie =>
  refine .bind_written (htop (hdiffers (by simpa using htie))) (.bind_ok hsource (.bind_ok (Value.display_str source) ?_))
  refine .bind_ok hnamed (.bind_ok (Value.joinTexts_texts ", " named) ?_)
  exact .ok (.single (c := 'C') (by simp [toString]) (by decide))

/-- The warnings about what is lost answer and report no drop. -/
theorem lossWarnings_answers {top : Value} {key source : String} {winner : Nat} {ctx : Context}
    (hwritable : writable → ∀ v ∈ values, v.isWritable = true)
    (htop : (∃ v ∈ values, v.wire ≠ key) → writable → top.isWritable = true)
    (hsource : ctx.sourceAt winner = .ok (.str source)) (hcounts : top.Counts)
    (hvalues : ∀ e ∈ ctx.priorities.zipIdx, e.1.Counts ∧ e.2 < values.length) :
    Answers writable (lossWarnings values ctx key top winner) Keeping := by
  unfold lossWarnings
  refine (overridden_answers hwritable key hcounts hvalues).bind fun lost hlost => ?_
  split
  · exact .ok .nil
  next hsome =>
  have hdiffers := hlost fun hnil => hsome (by rw [hnil]; rfl)
  refine .bind_ok hsource (.bind_ok (Value.display_str source) (.bind_written (htop hdiffers) ?_))
  exact .ok (.single (c := 'V') (by simp [toString]) (by decide))

end Searches

-- ============================================================ priority

section Items

variable {α : Type} {items : List α} {best : α} {value rank : α → Value} {source : α → String}

/-- The greatest rank is that of the leading item. -/
theorem greatest_leading (numbers : ∀ x ∈ items, (rank x).Counts)
    (hleads : Leading (fun x => (rank x).size) items best) :
    ∃ top ∈ items.map rank, Value.greatest (items.map rank) = .ok top ∧ top.Counts
      ∧ (rank best).size = top.size := by
  have hranks : ∀ p ∈ items.map rank, p.Counts := List.forall_mem_map.2 numbers
  have given : items.map rank ≠ [] := by simpa using List.ne_nil_of_mem hleads.mem
  obtain ⟨top, hin, htop, hmost⟩ := Value.exists_greatest given hranks
  refine ⟨top, hin, htop, hranks top hin, le_antisymm ?_ ?_⟩
  · exact hmost _ (List.mem_map_of_mem hleads.mem)
  · obtain ⟨x, hx, rfl⟩ := List.mem_map.1 hin
    exact hleads.rank_le x hx

/-- The places that are looked at are those of items. -/
theorem lt_of_mem_ranked {e : Value × Nat} (h : e ∈ (items.map rank).zipIdx) :
    e.1 ∈ items.map rank ∧ e.2 < items.length := by
  have hat : (items.map rank)[e.2]? = some e.1 := List.mem_zipIdx_iff_getElem?.1 h
  obtain ⟨hlt, -⟩ := List.getElem?_eq_some_iff.1 hat
  rw [List.length_map] at hlt
  exact ⟨List.mem_of_getElem? hat, hlt⟩

/-- The first item of the highest rank is found where it leads. -/
theorem findIdx_leading {top : Value} (htop : top.Counts) (numbers : ∀ x ∈ items, (rank x).Counts)
    (hleads : Leading (fun x => (rank x).size) items best) (hsize : (rank best).size = top.size) :
    items[(items.map rank).findIdx fun p => p.same top]? = some best := by
  obtain ⟨before, after, rfl, hbefore, -⟩ := hleads
  rw [List.findIdx_map]
  induction before with
  | nil =>
      have hfound : (rank best).same top = true :=
        (Value.same_counting (numbers best (by simp)) htop).2 hsize
      rw [List.nil_append, List.findIdx_cons]
      simp [hfound]
  | cons x before ih =>
      obtain ⟨hlower, hbefore⟩ := List.forall_mem_cons.1 hbefore
      obtain ⟨hx, numbers⟩ := List.forall_mem_cons.1 numbers
      have hmissed : (rank x).same top = false := by
        rw [Bool.eq_false_iff, Ne, Value.same_counting hx htop, ← hsize]
        exact hlower.ne
      rw [List.cons_append, List.findIdx_cons]
      simpa [hmissed] using ih numbers hbefore

/-- Priority takes the value of the leading item. The values have to be written,
and the ranks if the values differ. -/
theorem priority_of_leading (path : Value) (value rank : α → Value) (source : α → String)
    (numbers : ∀ x ∈ items, (rank x).Counts)
    (hleads : Leading (fun x => (rank x).size) items best) {writable : Prop}
    (hvalues : writable → ∀ x ∈ items, (value x).isWritable = true)
    (hranks : (∃ x ∈ items, ∃ y ∈ items, value x ≠ value y) → writable →
      ∀ x ∈ items, (rank x).isWritable = true) :
    Answers writable
      (priority (items.map value) ⟨path, (items.map source).map .str, items.map rank⟩)
      fun outcome => outcome.value = value best ∧ outcome.strategy = .priority
        ∧ outcome.sources = [.str (source best)] ∧ Keeping outcome.warnings := by
  obtain ⟨top, htopMem, htop, hcounts, hsize⟩ := greatest_leading numbers hleads
  have hwinner := findIdx_leading hcounts numbers hleads hsize
  have hsource : Context.sourceAt ⟨path, (items.map source).map .str, items.map rank⟩
      ((items.map rank).findIdx fun p => p.same top) = .ok (.str (source best)) := by
    rw [Context.sourceAt, List.map_map]
    exact Value.itemAt_map _ hwinner
  have hplace : ∀ {β : Type} (f : α → β), ∀ e ∈ (items.map rank).zipIdx,
      e.1.Counts ∧ e.2 < (items.map f).length := by
    intro β f e he
    obtain ⟨hin, hlt⟩ := lt_of_mem_ranked he
    exact ⟨List.forall_mem_map.2 numbers _ hin, by rwa [List.length_map]⟩
  unfold priority
  split
  · next h => exact absurd (List.ne_nil_of_mem hleads.mem) (by simpa using h)
  · next v h =>
      obtain ⟨only, rfl, rfl⟩ := List.map_eq_singleton_iff.1 h
      obtain rfl := List.mem_singleton.1 hleads.mem
      exact .ok ⟨rfl, rfl, rfl, .nil⟩
  · refine .bind_ok htop (.bind_ok (Value.itemAt_map value hwinner) ?_)
    refine .bind_written (fun h => hvalues h best hleads.mem) ?_
    have hwritten : writable → ∀ v ∈ items.map value, v.isWritable = true :=
      fun h => List.forall_mem_map.2 (hvalues h)
    have htopWritten : (∃ v ∈ items.map value, v.wire ≠ (value best).wire) → writable →
        top.isWritable = true := by
      rintro ⟨v, hv, hdiffers⟩ h
      obtain ⟨x, hx, rfl⟩ := List.mem_map.1 hv
      have hdifferent : ∃ x ∈ items, ∃ y ∈ items, value x ≠ value y :=
        ⟨x, hx, best, hleads.mem, fun hsame => hdiffers (congrArg Value.wire hsame)⟩
      obtain ⟨t, ht, rfl⟩ := List.mem_map.1 htopMem
      exact hranks hdifferent h t ht
    refine (tieWarnings_answers hwritten htopWritten hsource (hplace value)
      (hplace source)).bind fun ties hties => ?_
    refine (lossWarnings_answers hwritten htopWritten hsource hcounts (hplace value)).bind
      fun losses hlosses => ?_
    exact .bind_ok hsource (.ok ⟨rfl, rfl, rfl, hties.append hlosses⟩)

end Items

-- ============================================================== shares

variable {shares : List Share} {path : String}

/-- A value is that of the earliest share of the highest rank. -/
def Leads (shares : List Share) (v : Value) : Prop :=
  ∃ before s after, shares = before ++ s :: after ∧ v = s.value
    ∧ (∀ t ∈ before, t.rank < s.rank) ∧ ∀ t ∈ after, t.rank ≤ s.rank

theorem leads_of_leading {s : Share} (h : Leading Share.rank shares s) : Leads shares s.value := by
  obtain ⟨before, after, hsplit, hbefore, hafter⟩ := h
  exact ⟨before, s, after, hsplit, rfl, hbefore, hafter⟩

/-- Priority takes the value of the earliest share of the highest rank. -/
theorem priority_shares (path : String) (hne : shares ≠ []) :
    Answers (Writable shares) (priority (shares.map Share.value) (context path shares))
      fun outcome => outcome.strategy = .priority ∧ Keeping outcome.warnings
        ∧ Leads shares outcome.value := by
  obtain ⟨s, hleads⟩ := exists_leading Share.rank hne
  have hsizes : ∀ t u : Share, (Value.int t.rank).size < (Value.int u.rank).size
      ↔ t.rank < u.rank := by
    intro t u
    rw [Value.size_int, Value.size_int]
    exact Int.cast_lt
  have hrun := priority_of_leading (.str path) Share.value (fun t => .int t.rank) Share.source
    (fun t _ => ⟨_, rfl⟩) (hleads.of_lt_iff hsizes) Writable.values
    (fun hdifferent (h : Writable shares) => h.ranks hdifferent)
  rw [List.map_map] at hrun
  refine hrun.imp fun outcome ⟨hvalue, hstrategy, _, hkeeps⟩ => ⟨hstrategy, hkeeps, ?_⟩
  exact hvalue ▸ leads_of_leading hleads

end Merge

end Depot
