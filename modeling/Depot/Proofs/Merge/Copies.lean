/-
Merging copies of one configuration. Copies agree at every path, so nothing
about them can conflict, whatever strategy settles the path
(`Merges.of_copies`). What comes of a merge is the configuration itself but
for two things that a merge always does: it leaves out what is null in the
mappings that it joins, and a union has each item once
(`Merger.tidied`).

An item counts unless an earlier one is the same up to the order of keys
(`Value.firstOccurrences`), whichever of them the merge compared.
-/
import Depot.Proofs.Merge.Fitting
import Depot.Proofs.Merge.Reordered
import Depot.Proofs.Merge.Ties

namespace Depot

namespace Merge

-- ============================================================== tidied

namespace Merger

variable (m : Merger)

mutual
/-- A value at a path without nulls in the mappings that can be reached
from there over mappings, and with each item once in the lists that a union
is for. -/
def tidied (path : String) : Value → Value
  | .object fs => .object (tidiedFields path fs)
  | .list xs =>
      if m.strategyFor path = .union then .list (Value.firstOccurrences xs) else .list xs
  | v => v
/-- The entries of a mapping at a path, tidied. -/
def tidiedFields (path : String) : List (String × Value) → List (String × Value)
  | [] => []
  | (key, v) :: fs =>
      if v.isNull then tidiedFields path fs
      else (key, tidied (pathBelow path key) v) :: tidiedFields path fs
end

/-- Tidying a mapping leaves out what is null and tidies the rest. -/
theorem tidiedFields_eq (path : String) (fs : Fields) :
    m.tidiedFields path fs = fs.filterMap fun e =>
      if e.2.isNull then none else some (e.1, m.tidied (pathBelow path e.1) e.2) := by
  induction fs with
  | nil => rfl
  | cons e fs ih =>
      obtain ⟨key, v⟩ := e
      rw [tidiedFields, List.filterMap_cons, ih]
      cases v.isNull with
      | true => rfl
      | false => rfl

end Merger

-- ============================================================== copies

variable {shares : List Share} {path : String} {m : Merger} {v u : Value}

/-- The shares all have one value. -/
def Copies (v : Value) (shares : List Share) : Prop := ∀ s ∈ shares, s.value = v

theorem Copies.sameKind (h : Copies v shares) : SameKind shares := by
  intro s hs t ht
  rw [h s hs, h t ht]

theorem Copies.agree (h : Copies v shares) : Agree shares := by
  intro s hs t ht
  rw [h s hs, h t ht]

/-- Below copies there are as many copies of what they have there, or
nothing. -/
theorem Copies.below_eq (h : Copies v shares) (key : String) :
    below shares key = if (v.field key).isNull then [] else shares.map fun s => s.field key := by
  have hvalue : ∀ s ∈ shares, (s.field key).value = v.field key := by
    intro s hs
    rw [← h s hs]
    rfl
  rw [Merge.below_eq]
  by_cases hnull : (v.field key).isNull = true
  · rw [if_pos hnull, List.filter_eq_nil_iff.2, List.map_nil]
    intro s hs
    simp [hvalue s hs, hnull]
  · rw [if_neg hnull, List.filter_eq_self.2]
    intro s hs
    simpa [hvalue s hs] using hnull

theorem Copies.below (h : Copies v shares) (key : String) :
    Copies (v.field key) (below shares key) := by
  intro s hs
  obtain ⟨t, ht, rfl⟩ := List.mem_map.1 (List.mem_filter.1 hs).1
  show t.value.field key = v.field key
  rw [h t ht]

/-- Copies of a mapping have its keys. -/
theorem Copies.keysOf_eq {fs : Fields} (h : Copies (.object fs) shares)
    (hnodup : (Fields.keys fs).Nodup) (hne : shares ≠ []) : keysOf shares = Fields.keys fs := by
  have hentries : ∀ s ∈ shares, s.entries = fs := by
    intro s hs
    rw [Share.entries, h s hs]
    rfl
  obtain ⟨first, rest, rfl⟩ := List.exists_cons_of_ne_nil hne
  have hrest : ∀ key ∈ (rest.map Share.entries).flatMap Fields.keys, key ∈ Fields.keys fs := by
    intro key hkey
    obtain ⟨gs, hgs, hmem⟩ := List.mem_flatMap.1 hkey
    obtain ⟨s, hs, rfl⟩ := List.mem_map.1 hgs
    rwa [hentries s (List.mem_cons_of_mem first hs)] at hmem
  have hremoved : ((rest.map Share.entries).flatMap Fields.keys).removeAll (Fields.keys fs)
      = [] := by
    refine List.filter_eq_nil_iff.2 fun key hkey => ?_
    simpa using hrest key hkey
  rw [keysOf, allKeys, List.map_cons, List.flatMap_cons, hentries first List.mem_cons_self,
    List.eraseDups_append, hremoved, eraseDups_of_nodup hnodup]
  simp

-- ============================================================= settled

/-- What a strategy decides between copies. -/
theorem Strategy.Decides.of_copies {way : Strategy} (h : way.Decides shares u)
    (hsuits : way.Suits shares) (hcopies : Copies v shares) (hne : shares ≠ []) :
    u = if way = .union then .list (Value.firstOccurrences v.listed) else v := by
  obtain ⟨first, rest, rfl⟩ := List.exists_cons_of_ne_nil hne
  have hfirst : first.value = v := hcopies first List.mem_cons_self
  have hrest : ∀ s ∈ rest, s.value = v := fun s hs => hcopies s (List.mem_cons_of_mem first hs)
  cases way with
  | union =>
      have hu : u = .list (Value.firstOccurrences (first.value.listed
          ++ rest.flatMap fun s => s.value.listed)) := h
      rw [if_pos rfl, hu, Value.firstOccurrences_append_of_mem, hfirst]
      intro w hw
      obtain ⟨s, hs, hmem⟩ := List.mem_flatMap.1 hw
      rwa [hrest s hs, ← hfirst] at hmem
  | intersection =>
      have hlisted : first.value.items?.isSome = true := hsuits first List.mem_cons_self
      have hall : common (first :: rest) = first.value.listed := by
        refine List.filter_eq_self.2 fun w hw => List.all_eq_true.2 fun s hs => ?_
        rw [lists_iff, hrest s hs, ← hfirst]
        exact ⟨w, hw, rfl⟩
      rw [if_neg Strategy.noConfusion, ← hfirst]
      refine Eq.trans h ?_
      rw [hall]
      cases hvalue : first.value with
      | list xs => rfl
      | _ => rw [hvalue] at hlisted; cases hlisted
  | maximum | minimum =>
      obtain ⟨s, hs, hvalue, -⟩ := h
      rw [if_neg Strategy.noConfusion, hvalue, hcopies s hs]
  | priority =>
      obtain ⟨before, s, after, hsplit, hvalue, -⟩ := h
      rw [if_neg Strategy.noConfusion, hvalue]
      exact hcopies s (by rw [hsplit]; simp)
  | custom => exact h.elim

/-- A path is settled by union if that is asked for and all values are
lists. -/
theorem wayFor_eq_union_iff {default : Strategy} {values : List Value} :
    wayFor default path values = .union
      ↔ askedFor default path = .union ∧ (values.all fun v => v.items?.isSome) = true := by
  unfold wayFor
  cases askedFor default path with
  | union => cases values.all fun v => v.items?.isSome with
    | _ => simp
  | intersection => cases values.all fun v => v.items?.isSome with
    | _ => simp
  | maximum | minimum => cases values.all Value.isNumber with
    | _ => simp
  | priority | custom => simp

/-- Copies that are no mappings are settled as they are, but for repeated
items. -/
theorem Settles.of_copies {notes : Ledger} (h : Settles m.default path shares u notes)
    (hcustoms : m.customs = {}) (hcopies : Copies v shares) (hne : shares ≠ [])
    (hmixed : ¬ Mapped shares) : u = m.tidied path v ∧ notes.conflicts = [] := by
  refine ⟨?_, h.quiet.2 ⟨hcopies.sameKind, fun _ => hcopies.agree⟩⟩
  rw [h.decides.of_copies (suits_wayFor m.default path shares) hcopies hne]
  obtain ⟨first, rest, rfl⟩ := List.exists_cons_of_ne_nil hne
  have hunion : wayFor m.default path ((first :: rest).map Share.value) = .union
      ↔ m.strategyFor path = .union ∧ v.items?.isSome = true := by
    rw [wayFor_eq_union_iff, Merger.Uses.strategyFor ⟨hcustoms, rfl⟩]
    refine and_congr_right fun _ => ?_
    rw [List.all_eq_true, List.forall_mem_map]
    exact ⟨fun hall => hcopies first List.mem_cons_self ▸ hall first List.mem_cons_self,
      fun hlisted s hs => by rwa [hcopies s hs]⟩
  cases v with
  | list xs =>
      rw [Merger.tidied]
      by_cases hasked : m.strategyFor path = .union
      · rw [if_pos (hunion.2 ⟨hasked, rfl⟩), if_pos hasked]
        rfl
      · rw [if_neg fun hway => hasked (hunion.1 hway).1, if_neg hasked]
  | object fs =>
      refine absurd (fun s hs => ?_) hmixed
      rw [hcopies s hs]
      rfl
  | _ => exact if_neg fun hway => by cases (hunion.1 hway).2

-- ============================================================== merged

/-- Copies merge to their value tidied, without any conflict. -/
theorem Merges.of_copies {notes : Ledger} (h : Merges m.default path shares u notes)
    (hcustoms : m.customs = {}) (hcopies : Copies v shares) (hdistinct : v.Distinct)
    (hwritable : Writable shares) (hseveral : 1 < shares.length) :
    u = m.tidied path v ∧ notes.conflicts = [] := by
  induction h generalizing v with
  | settled mixed settles =>
      exact settles.of_copies hcustoms hcopies (List.ne_nil_of_length_pos (by omega)) mixed
  | dropped mixed drops => exact absurd hwritable drops.unwritable
  | @joined path shares value notes mapped several ih =>
      have hne : shares ≠ [] := List.ne_nil_of_length_pos (by omega)
      obtain ⟨s, hs⟩ := List.exists_mem_of_ne_nil shares hne
      have hobject : ∃ fs, v = .object fs := by
        have hmapped := mapped s hs
        rw [hcopies s hs] at hmapped
        cases v with
        | object fs => exact ⟨fs, rfl⟩
        | _ => cases hmapped
      obtain ⟨fs, rfl⟩ := hobject
      have hnodup : (Fields.keys fs).Nodup := hdistinct.1
      have hbelow : ∀ key, 1 < (Merge.below shares key).length →
          value key = m.tidied (pathBelow path key) ((Value.object fs).field key)
          ∧ (notes key).conflicts = [] := fun key hlong =>
        ih key hlong (hcopies.below key) (distinct_field hdistinct key) (hwritable.below key) hlong
      refine ⟨?_, ?_⟩
      · rw [Merger.tidied, Merger.tidiedFields_eq, Merge.joined, hcopies.keysOf_eq hnodup hne,
          Fields.keys, List.filterMap_map]
        refine congrArg Value.object (List.filterMap_congr fun e he => ?_)
        have hfield : (Value.object fs).field e.1 = e.2 := by
          show (fs.lookup e.1).getD .null = e.2
          rw [Table.lookup_of_mem hnodup he]
          rfl
        have hshares := hcopies.below_eq e.1
        rw [hfield] at hshares
        show (joinedAt (Merge.below shares e.1) (value e.1)).map (e.1, ·) = _
        cases hnull : e.2.isNull with
        | true =>
            rw [hnull, if_pos rfl] at hshares
            rw [hshares]
            rfl
        | false =>
            rw [hnull, if_neg Bool.false_ne_true] at hshares
            have hlong : 1 < (Merge.below shares e.1).length := by rwa [hshares, List.length_map]
            have hstands : value e.1 ≠ .null := (several e.1 hlong).ne_null (hwritable.below e.1)
            rw [joinedAt_of_several hlong hstands, (hbelow e.1 hlong).1, hfield]
            rfl
      · rw [joinedNotes, Ledger.conflicts_concat, List.flatMap_map]
        refine List.flatMap_eq_nil_iff.2 fun key _ => ?_
        split
        · next hlong => exact (hbelow key hlong).2
        · rfl

-- ======================================================== whole merges

/-- A list of sources or priorities is missing, or has one for each of some
configurations. -/
def Reaches {α : Type} (count : Nat) (given : List α) : Prop := given = [] ∨ count ≤ given.length

end Merge

end Depot
