/-
The strategies for lists as operations on sets. Items count as one if they are
equal but for the order of keys, that is, if they are equal once ordered
(`Value.ordered_eq_iff`); which of several equal ones stands in a result is
always the first. A union has the items that no equal one precedes, and it
makes no difference whether some of the lists were united before
(`union_union`). An intersection has the items of the first list that all
others have, so that up to equality it is the same in every order of the lists
(`commonItems_perm`).

To tell items apart the strategies write them. Both answer where all items can
be written, and fail where one cannot, whichever it is.
-/
import Depot.Proofs.Merge.Strategy

namespace Depot

namespace Merge

-- =============================================================== union

/-- The lists as one value. -/
def together (lists : List (List Value)) : Value := .list (lists.map .list)

/-- Lists can be written together if each of their items can. -/
theorem isWritable_together {lists : List (List Value)} :
    (together lists).isWritable = true ↔ ∀ v ∈ lists.flatten, v.isWritable = true := by
  unfold together
  rw [Value.isWritable_list_iff, List.forall_mem_map]
  simp only [Value.isWritable_list_iff, List.mem_flatten]
  constructor
  · rintro h v ⟨items, hitems, hv⟩
    exact h items hitems v hv
  · intro h items hitems v hv
    exact h v ⟨items, hitems, hv⟩

/-- The union of lists is all their items once each, if they can be written. -/
theorem union_lists (lists : List (List Value)) (ctx : Context) :
    union (lists.map .list) ctx
      = (together lists).written
          ⟨.list (Value.firstOccurrences lists.flatten), .union, ctx.sources, []⟩ := by
  have hitems : (lists.map Value.list).flatMap Value.listed = lists.flatten := by
    rw [List.flatMap_map]
    exact List.flatMap_id
  rw [union_listed (List.forall_mem_map.2 fun items _ => rfl), hitems]
  rfl

/-- Leaving out repetitions leaves out nothing that cannot be written. -/
theorem isWritable_together_firstOccurrences (xs ys : List (List Value))
    (hxs : (together xs).isWritable = true) :
    (together (Value.firstOccurrences xs.flatten :: ys)).isWritable
      = (together (xs ++ ys)).isWritable := by
  have hfirst : ∀ v ∈ Value.firstOccurrences xs.flatten, v.isWritable = true :=
    fun v hv => isWritable_together.1 hxs v ((Value.firstOccurrences_sublist _).subset hv)
  rw [Bool.eq_iff_iff, isWritable_together, isWritable_together, List.flatten_cons,
    List.flatten_append, List.forall_mem_append, List.forall_mem_append]
  constructor
  · exact fun h => ⟨isWritable_together.1 hxs, h.2⟩
  · exact fun h => ⟨hfirst, h.2⟩

/-- Some of the lists may be united first. -/
theorem union_union (xs ys : List (List Value)) (ctx ctx' : Context) :
    (do union ((← union (xs.map .list) ctx').value :: ys.map .list) ctx)
      = union ((xs ++ ys).map .list) ctx := by
  rw [union_lists, union_lists, List.flatten_append, ← Value.firstOccurrences_append]
  cases hxs : (together xs).isWritable with
  | true =>
      rw [Value.written_of_writable hxs]
      refine (union_lists (Value.firstOccurrences xs.flatten :: ys) ctx).trans ?_
      unfold Value.written
      rw [isWritable_together_firstOccurrences xs ys hxs]
      rfl
  | false =>
      have hboth : (together (xs ++ ys)).isWritable = false := by
        rw [← Bool.not_eq_true, isWritable_together, List.flatten_append, List.forall_mem_append,
          ← isWritable_together, hxs]
        simp
      rw [Value.written_of_not_writable hxs, Value.written_of_not_writable hboth]
      rfl

-- ======================================================== intersection

/-- A list with the source that it comes from. -/
structure Listing where
  source : String
  items : List Value

namespace Listing

/-- Whether the list has an item that is equal to a value. -/
def has (l : Listing) (v : Value) : Bool := l.items.any fun w => w.ordered = v.ordered

/-- The list as a share of a merge. -/
def share (l : Listing) : Share := ⟨.list l.items, l.source, 0⟩

theorem lists_share (l : Listing) (v : Value) : l.share.lists v.wire = l.has v := by
  unfold Share.lists has
  simp only [Value.wire_eq_iff]
  rfl

end Listing

/-- The items of the first list that all others have. -/
def commonItems : List Listing → List Value
  | [] => []
  | first :: others => first.items.filter fun v => others.all fun l => l.has v

/-- The source of the first list that lacks a value. -/
def lackingList (others : List Listing) (v : Value) : String :=
  ((others.find? fun l => !l.has v).map Listing.source).getD ""

/-- What is said of the items of the first list that others lack. -/
def exclusions (path : Value) (first : Listing) (others : List Listing) : List String :=
  (first.items.filter fun v => !others.all fun l => l.has v).map fun v =>
    exclusion path v.wire first.source (lackingList others v)

theorem lackingSource_share (others : List Listing) (v : Value) :
    lackingSource (others.map Listing.share) v.wire = lackingList others v := by
  unfold lackingSource lackingList
  rw [List.find?_map, Option.map_map]
  simp only [Function.comp_def, Listing.lists_share]
  rfl

theorem all_share (others : List Listing) (v : Value) :
    ((others.map Listing.share).all fun s => s.lists v.wire) = others.all fun l => l.has v := by
  rw [List.all_map]
  simp only [Function.comp_def, Listing.lists_share]

/-- Of several lists the items of the first stay that all others have. Each of
its other items is accounted for by a text, and so is that nothing
stayed. -/
theorem intersection_listings (first second : Listing) (rest : List Listing) (path : Value)
    (priorities : List Value) :
    let others := second :: rest
    let sources := (first :: others).map Listing.source
    let kept := commonItems (first :: others)
    intersection ((first :: others).map fun l => .list l.items)
        ⟨path, sources.map .str, priorities⟩
      = (together ((first :: others).map Listing.items)).written
          ⟨.list kept, .intersection, sources.map .str,
            exclusions path first others ++ if kept.isEmpty then [emptied path sources] else []⟩ := by
  intro others sources kept
  have hlisted : Listed ((first :: others).map Listing.share) := by
    intro s hs
    obtain ⟨l, -, rfl⟩ := List.mem_map.1 hs
    rfl
  have hsources : sources.map .str = sourcesOf ((first :: others).map Listing.share) := by
    unfold sourcesOf
    rw [List.map_map, List.map_map]
    rfl
  have hnames : ((first :: others).map Listing.share).map Share.source = sources := List.map_map
  have hvalues : ((first :: others).map Listing.share).map Share.value
      = (first :: others).map fun l => .list l.items := List.map_map
  have hcommon : common ((first :: others).map Listing.share) = kept :=
    List.filter_congr fun v _ => all_share others v
  have hrun : intersection (((first :: others).map Listing.share).map Share.value)
        ⟨path, sources.map .str, priorities⟩
      = (Value.list (((first :: others).map Listing.share).map Share.value)).written
          ⟨.list (common ((first :: others).map Listing.share)), .intersection, sources.map .str,
          ((first.items.filter fun v => !(others.map Listing.share).all fun s => s.lists v.wire).map
            fun v => exclusion path v.wire first.source
              (lackingSource (others.map Listing.share) v.wire))
          ++ if (common ((first :: others).map Listing.share)).isEmpty then
              [emptied path (((first :: others).map Listing.share).map Share.source)] else []⟩ :=
    intersection_several hlisted hsources
  simp only [all_share, lackingSource_share] at hrun
  have htogether : together ((first :: others).map Listing.items)
      = .list ((first :: others).map fun l => .list l.items) := congrArg Value.list List.map_map
  rw [hvalues, hcommon, hnames] at hrun
  rwa [htogether]

/-- An intersection has what all lists have. -/
theorem mem_commonItems {ls : List Listing} (given : ls ≠ []) (o : Value) :
    o ∈ (commonItems ls).map Value.ordered ↔ ∀ l ∈ ls, o ∈ l.items.map Value.ordered := by
  obtain ⟨first, others, rfl⟩ := List.exists_cons_of_ne_nil given
  rw [List.forall_mem_cons, commonItems]
  simp only [List.mem_map, List.mem_filter, List.all_eq_true, Listing.has, List.any_eq_true,
    decide_eq_true_eq]
  constructor
  · intro h
    obtain ⟨v, ⟨hfirst, hothers⟩, rfl⟩ := h
    exact ⟨⟨v, hfirst, rfl⟩, hothers⟩
  · intro h
    obtain ⟨⟨v, hfirst, rfl⟩, hothers⟩ := h
    exact ⟨v, ⟨hfirst, hothers⟩, rfl⟩

/-- An intersection has the same in every order of the lists. -/
theorem commonItems_perm {ls ls' : List Listing} (h : ls.Perm ls') (o : Value) :
    o ∈ (commonItems ls).map Value.ordered ↔ o ∈ (commonItems ls').map Value.ordered := by
  by_cases given : ls = []
  · subst given
    rw [h.nil_eq]
  · have given' : ls' ≠ [] := fun hnil => given (hnil ▸ h).eq_nil
    rw [mem_commonItems given, mem_commonItems given']
    simp only [h.mem_iff]

-- ======================================================== the strategies

/-- The strategies for lists as operations on sets, as far as the lists can be
written. -/
theorem list_strategies_are_set_operations :
    (∀ (lists : List (List Value)) (ctx : Context), ∃ kept,
        union (lists.map .list) ctx
            = (together lists).written ⟨.list kept, .union, ctx.sources, []⟩
          ∧ kept.Sublist lists.flatten ∧ (kept.map Value.ordered).Nodup
          ∧ ∀ v, v ∈ kept ↔ v.IsFirst lists.flatten)
      ∧ (∀ (xs ys : List (List Value)) (ctx ctx' : Context),
        (do union ((← union (xs.map .list) ctx').value :: ys.map .list) ctx)
          = union ((xs ++ ys).map .list) ctx)
      ∧ (∀ (first second : Listing) (rest : List Listing) (path : Value) (priorities : List Value),
        let others := second :: rest
        let sources := (first :: others).map Listing.source
        let kept := commonItems (first :: others)
        intersection ((first :: others).map fun l => .list l.items)
            ⟨path, sources.map .str, priorities⟩
          = (together ((first :: others).map Listing.items)).written
              ⟨.list kept, .intersection, sources.map .str, exclusions path first others
                ++ if kept.isEmpty then [emptied path sources] else []⟩)
      ∧ ∀ ls ls' : List Listing, ls.Perm ls' → ∀ o,
        o ∈ (commonItems ls).map Value.ordered ↔ o ∈ (commonItems ls').map Value.ordered := by
  refine ⟨fun lists ctx => ?_, union_union, intersection_listings, fun _ _ => commonItems_perm⟩
  exact ⟨_, union_lists lists ctx, Value.firstOccurrences_sublist _,
    Value.nodup_firstOccurrences _, fun _ => Value.mem_firstOccurrences_iff⟩

/-- Two sources share one item of theirs; the other item of the first is left
out, with a text. -/
theorem shared_item_stays :
    let api : Listing := ⟨"api", [.int 80, .int 443]⟩
    let web : Listing := ⟨"web", [.int 443, .int 8080]⟩
    (∃ outcome, intersection [.list api.items, .list web.items]
          ⟨.str "ports", [.str "api", .str "web"], []⟩ = .ok outcome
        ∧ outcome.value = .list [.int 443] ∧ outcome.warnings.length = 1)
      ∧ [api, web].Perm [web, api]
      ∧ ∀ o, o ∈ (commonItems [api, web]).map Value.ordered
        ↔ o ∈ (commonItems [web, api]).map Value.ordered := by
  intro api web
  obtain ⟨-, -, hintersection, hperm⟩ := list_strategies_are_set_operations
  have hswap : [api, web].Perm [web, api] := .swap ..
  exact ⟨⟨_, hintersection api web [] (.str "ports") [], rfl, rfl⟩, hswap, hperm _ _ hswap⟩

/-- A union of an item that cannot be written with itself fails, and so does an
intersection that has something to say about sources that are no texts. -/
theorem lists_fail_unless_written :
    (union [.list [.int Written.leastTooLong, .int Written.leastTooLong]]
        ⟨.str "ports", [.str "api"], []⟩).toOption = none
    ∧ (intersection [.list [.int 1], .list [.int 2]]
        ⟨.str "ports", [.int 5, .int 6], []⟩).toOption = none :=
  ⟨by decide +kernel, by decide +kernel⟩

end Merge

end Depot
