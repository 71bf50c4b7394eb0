/-
The index of a registry. Beside its providers a registry keeps, for every
type, the ids of the providers listed for it; the two are changed
together and never compared. `Indexed` is the invariant that they agree:
under every type stand exactly the ids of the providers that list it, in
the order of registration.

A provider lists its types up to the first that cannot be a key
(`Provider.listed`), because there its registration stops; and there its
removal stops as well, so that exactly what was listed is taken back.
That is why the invariant needs no hypothesis on the providers: it holds
of the empty registry, and every registration and removal keeps it, those
that fail included (`Indexed.register`, `Indexed.unregister`).

With it a look-up by type is a filter of the providers
(`Indexed.forType_eq`).
-/
import Depot.Proofs.Value.Keyed
import Depot.Proofs.Work
import Depot.Provider.Registry

namespace Depot

variable {σ : Type}

-- ======================================================== listed types

namespace Provider

/-- All types that a provider tells. -/
def told (p : Provider σ) : List Value := (p.types.orElse (.list [])).iterate.toOption.getD []

/-- The types that a provider can be listed for: those up to the first that
cannot be a key. -/
def listed (p : Provider σ) : List Value := p.told.takeWhile Value.canName

/-- Whether a provider can be listed for a type. -/
def lists (p : Provider σ) (type : Value) : Bool := type.isAmong p.listed

end Provider

namespace Registry

theorem isAmong_cons (v w : Value) (ws : List Value) :
    v.isAmong (w :: ws) = (w.same v || v.isAmong ws) := rfl

theorem isAmong_append (v : Value) (vs ws : List Value) :
    v.isAmong (vs ++ ws) = (v.isAmong vs || v.isAmong ws) := List.any_append

/-- The types under which a provider is registered are those it tells. -/
theorem typesOf_toOption (id : Value) (p : Provider σ) :
    (typesOf id p).toOption.getD [] = p.told := by
  unfold typesOf Provider.told
  cases h : (p.types.orElse (.list [])).iterate with
  | error fault => rfl
  | ok types =>
      cases types with
      | nil => rfl
      | cons type rest => rfl

-- ============================================================== listing

variable {id : Value} {index : Keyed (List Value)}

/-- The ids that an index has for a type. -/
def idsFor (index : Keyed (List Value)) (type : Value) : List Value :=
  (index.get? type).getD []

theorem idsFor_congr {type other : Value} (htype : type.canName = true)
    (h : type.same other = true) (index : Keyed (List Value)) :
    idsFor index type = idsFor index other := by
  unfold idsFor
  rw [Keyed.get?_congr htype h]

/-- An entry that is put is found under its type; elsewhere nothing changes. -/
theorem idsFor_put {type : Value} (htype : type.canName = true) (index : Keyed (List Value))
    (ids : List Value) (other : Value) :
    idsFor (index.put type ids) other = if type.same other then ids else idsFor index other := by
  unfold idsFor
  rw [Keyed.get?_put htype]
  cases type.same other with
  | true => rfl
  | false => rfl

/-- An entry that is taken out is gone; elsewhere nothing changes. -/
theorem idsFor_erase {type : Value} (htype : type.canName = true) (index : Keyed (List Value))
    (other : Value) :
    idsFor (index.erase type) other = if type.same other then [] else idsFor index other := by
  unfold idsFor
  rw [Keyed.get?_erase htype]
  cases type.same other with
  | true => rfl
  | false => rfl

/-- Listing an id for a type puts it last there, if it is new. -/
theorem idsFor_listFor {type : Value} (htype : type.canName = true) (index : Keyed (List Value))
    (other : Value) :
    idsFor (listFor id type index) other
      = if type.same other && !id.isAmong (idsFor index other)
        then idsFor index other ++ [id] else idsFor index other := by
  have hlist : listFor id type index = if id.isAmong (idsFor index type) then index
      else index.put type (idsFor index type ++ [id]) := rfl
  rw [hlist]
  cases hsame : type.same other with
  | true =>
      rw [idsFor_congr htype hsame]
      cases hin : id.isAmong (idsFor index other) with
      | true => simp
      | false => simp [idsFor_put htype, hsame]
  | false =>
      cases id.isAmong (idsFor index type) with
      | true => simp
      | false => simp [idsFor_put htype, hsame]

/-- Listing an id for several types puts it once, at the end, under each of
them up to the first that cannot be a key. -/
theorem idsFor_listForAll (hid : id.canName = true) (types : List Value)
    (index : Keyed (List Value)) (other : Value) :
    idsFor (listForAll id types index).1 other
      = if other.isAmong (types.takeWhile Value.canName) && !id.isAmong (idsFor index other)
        then idsFor index other ++ [id] else idsFor index other := by
  induction types generalizing index with
  | nil => rfl
  | cons type rest ih =>
      unfold listForAll
      cases htype : type.canName with
      | false => simp [htype, Value.isAmong]
      | true =>
          rw [if_pos rfl, ih, idsFor_listFor htype, List.takeWhile_cons, htype, if_pos rfl,
            isAmong_cons]
          cases type.same other with
          | false => simp
          | true =>
              -- once listed, the id is not listed again for a later type
              cases hin : id.isAmong (idsFor index other) with
              | true => simp [hin]
              | false => simp [hin, isAmong_append, isAmong_cons, Value.same_refl hid]

/-- Taking an id off a list takes it out there; elsewhere nothing changes. -/
theorem idsFor_unlist {type : Value} (htype : type.canName = true)
    (index : Keyed (List Value)) (other : Value) :
    idsFor (unlist id type index) other
      = if type.same other then (idsFor index other).filter fun v => !v.same id
        else idsFor index other := by
  unfold unlist
  cases hget : index.get? type with
  | none =>
      cases hsame : type.same other with
      | true =>
          have hnone : idsFor index other = [] := by
            rw [← idsFor_congr htype hsame]
            unfold idsFor
            rw [hget]
            rfl
          simp [hnone]
      | false => simp
  | some ids =>
      have hids : idsFor index type = ids := by
        unfold idsFor
        rw [hget]
        rfl
      cases hsame : type.same other with
      | true =>
          rw [idsFor_congr htype hsame] at hids
          rw [hids]
          simp only [if_true]
          split
          next hempty => rw [idsFor_erase htype, hsame, hempty, if_pos rfl]
          next hrest => rw [idsFor_put htype, hsame, if_pos rfl]
      | false =>
          simp only [Bool.false_eq_true, if_false]
          split
          · simp [idsFor_erase htype, hsame]
          · simp [idsFor_put htype, hsame]

/-- Taking an id back from several types removes it from each of them up
to the first that cannot be a key. -/
theorem idsFor_unlistAll (types : List Value) (index : Keyed (List Value)) (other : Value) :
    idsFor (unlistAll id types index).1 other
      = if other.isAmong (types.takeWhile Value.canName)
        then (idsFor index other).filter fun v => !v.same id else idsFor index other := by
  induction types generalizing index with
  | nil => rfl
  | cons type rest ih =>
      unfold unlistAll
      cases htype : type.canName with
      | false => simp [htype, Value.isAmong]
      | true =>
          rw [if_pos rfl, ih, idsFor_unlist htype, List.takeWhile_cons, htype, if_pos rfl,
            isAmong_cons]
          cases type.same other with
          | false => simp
          | true => simp [List.filter_filter]

-- ============================================================ invariant

/-- The index agrees with the providers. -/
structure Indexed (r : Registry σ) : Prop where
  /-- Providers stand under the ids that they tell. -/
  named : ∀ e ∈ r.providers, e.1.canName = true ∧ e.2.id = some e.1
  /-- No two ids are the same. -/
  distinct : r.providers.Pairwise fun e e' => e.1.same e'.1 = false
  /-- Under a type stand the ids of the providers that list it. -/
  agrees : ∀ type, type.canName = true →
    idsFor r.index type = (r.providers.filter fun e => e.2.lists type).map Prod.fst

theorem Indexed.empty : Indexed ({} : Registry σ) :=
  ⟨by simp, .nil, fun _ _ => rfl⟩

/-- What a registration accepts: an id that is not taken, and the types
that the provider tells. -/
theorem accept_ok {r : Registry σ} {offer : Offer σ} {p : Provider σ} {id : Value}
    {types : List Value} (h : r.accept offer = .ok (p, id, types)) :
    id.canName = true ∧ p.id = some id ∧ r.providers.has id = false ∧ types = p.told := by
  cases offer with
  | value v => cases h
  | provider q =>
      unfold accept at h
      simp only at h
      split at h
      · cases h
      next htruthy =>
        obtain ⟨told, htold, h⟩ := bind_eq_ok.1 h
        obtain ⟨there, hthere, h⟩ := bind_eq_ok.1 h
        rw [Keyed.contains_eq] at hthere
        split at hthere
        · cases hthere
          split at h
          · cases h
          next hnew =>
            cases h
            refine ⟨‹_›, ?_, by simpa using hnew, ?_⟩
            · -- an id that counts as given was told
              cases hid : p.id with
              | none => simp [hid, Value.isTruthy] at htruthy
              | some v => rfl
            · rw [← typesOf_toOption (p.id.getD .null) p, htold]
              rfl
        · cases hthere

theorem isAmong_eq_false_iff {v : Value} {ws : List Value} :
    v.isAmong ws = false ↔ ∀ w ∈ ws, w.same v = false := by
  unfold Value.isAmong
  simp

/-- Registration keeps the invariant, whether it succeeds or not. -/
theorem Indexed.register {r : Registry σ} (h : r.Indexed) (offer : Offer σ) :
    (r.register offer).1.Indexed := by
  unfold Registry.register
  cases hacc : r.accept offer with
  | error fault => exact h
  | ok found =>
      obtain ⟨p, id, types⟩ := found
      obtain ⟨hid, hpid, hnew, rfl⟩ := accept_ok hacc
      have hfresh := Keyed.has_eq_false_iff.1 hnew
      show Indexed ⟨r.providers.put id p, (listForAll id p.told r.index).1⟩
      rw [Keyed.put_of_has_eq_false hnew]
      refine ⟨?_, ?_, ?_⟩
      · intro e he
        rcases List.mem_append.1 he with he | he
        · exact h.named e he
        · rw [List.mem_singleton.1 he]
          exact ⟨hid, hpid⟩
      · refine List.pairwise_append.2 ⟨h.distinct, List.pairwise_singleton .., ?_⟩
        intro e he e' he'
        rw [List.mem_singleton.1 he']
        exact hfresh e he
      · intro type htype
        have hold : id.isAmong (idsFor r.index type) = false := by
          rw [h.agrees type htype, isAmong_eq_false_iff]
          intro w hw
          obtain ⟨e, he, rfl⟩ := List.mem_map.1 hw
          exact hfresh e (List.mem_filter.1 he).1
        rw [idsFor_listForAll hid, hold, h.agrees type htype, List.filter_append]
        cases hlists : p.lists type with
        | true =>
            have hamong : type.isAmong (p.told.takeWhile Value.canName) = true := hlists
            simp [hamong, hlists]
        | false =>
            have hamong : type.isAmong (p.told.takeWhile Value.canName) = false := hlists
            simp [hamong, hlists]

/-- Under a right index no two providers have one id. -/
theorem Indexed.isMapping {r : Registry σ} (h : r.Indexed) : r.providers.IsMapping :=
  ⟨fun e he => (h.named e he).1, h.distinct⟩

/-- Removal keeps the invariant, whether it succeeds or not. -/
theorem Indexed.unregister {r : Registry σ} (h : r.Indexed) (id : Value) :
    (r.unregister id).1.Indexed := by
  unfold Registry.unregister
  rw [Keyed.find?_eq]
  cases hid : id.canName with
  | false => exact h
  | true =>
      cases hget : r.providers.get? id with
      | none => exact h
      | some p =>
          simp only [if_true, typesOf_toOption]
          obtain ⟨k, hk, hsame⟩ := Keyed.mem_of_get? hget
          have hmem : ∀ {e}, e ∈ r.providers.erase id → e ∈ r.providers := fun he =>
            (List.mem_filter.1 he).1
          refine ⟨fun e he => h.named e (hmem he), h.distinct.filter _, ?_⟩
          intro type htype
          show idsFor (unlistAll id p.told r.index).1 type = _
          rw [idsFor_unlistAll, h.agrees type htype]
          have hlists : type.isAmong (p.told.takeWhile Value.canName) = p.lists type := rfl
          rw [hlists]
          cases hp : p.lists type with
          | true =>
              rw [if_pos rfl, List.filter_map]
              unfold Keyed.erase
              rw [List.filter_filter, List.filter_filter]
              congr 1
              refine List.filter_congr fun e _ => ?_
              exact Bool.and_comm ..
          | false =>
              -- the provider that goes was not listed here
              unfold Keyed.erase
              simp only [Bool.false_eq_true, if_false, List.filter_filter]
              congr 1
              refine List.filter_congr fun e he => ?_
              cases hsame' : e.1.same id with
              | false => simp
              | true =>
                  have hek : e.1.same k = true := by
                    rw [Value.same_congr_right (h.named _ hk).1 hsame]
                    exact hsame'
                  rw [h.isMapping.eq_of_same he hk hek]
                  simp [hp]

/-- Several registrations keep the index right. -/
theorem Indexed.registerAll {r : Registry σ} (h : r.Indexed) (offers : List (Offer σ)) :
    (r.registerAll offers).1.Indexed := by
  induction offers generalizing r with
  | nil => exact h
  | cons offer offers ih =>
      have first := h.register offer
      unfold Registry.registerAll
      rcases hreg : r.register offer with ⟨r', events, _ | fault⟩
      · rw [hreg] at first
        exact ih first
      · rw [hreg] at first
        exact first

-- ============================================================== look-up

/-- The providers found by type are those that list it, in the order of
registration. -/
theorem Indexed.forType_eq {r : Registry σ} (h : r.Indexed) {type : Value}
    (htype : type.canName = true) :
    r.forType type = .ok (r.all.filter fun p => p.lists type) := by
  unfold forType all
  rw [Keyed.find?_of_canName htype]
  show Except.ok ((idsFor r.index type).filterMap r.providers.get?) = _
  rw [h.agrees type htype, List.filterMap_map, List.filter_map]
  congr 1
  rw [← List.filterMap_eq_map]
  refine List.filterMap_congr fun e he => ?_
  exact h.isMapping.get?_of_mem (List.mem_filter.1 he).1

end Registry

end Depot
