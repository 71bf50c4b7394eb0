/-
What a registry holds and finds after any history of calls. Beside the
registry there is a plain account of the same history: a list of
providers, to which an accepted one is appended (`enrol`) and from which a
removed one is taken. The account knows nothing of ids by type. Every call
does to the providers of a registry what it does to the account
(`Sound.apply`), and so does every history (`Sound.after`).

Look-ups are answered from the index, so they follow the account only as
long as the index does. `Indexed` says that under every type stand the
right ids. What it leaves open is an entry without ids, which would make a
type look supported; `Filled` says that there is none. Registration only
adds ids, and a removal that takes the last id of a type takes the entry.
-/
import Depot.Proofs.Provider.Search
import Mathlib.Data.List.TakeWhile

namespace Depot

variable {σ : Type}

-- =============================================================== texts

namespace Provider

/-- Whether a text is among the types that the provider tells. -/
def supports (p : Provider σ) (type : String) : Bool := decide (.str type ∈ p.told)

/-- The id of the provider and its types are texts. -/
def InTexts (p : Provider σ) : Prop :=
  ∃ id types, p.id = some (.str id) ∧ p.types = .texts types

/-- A provider whose types are texts tells these. -/
theorem told_of_types {p : Provider σ} {types : List String} (h : p.types = .texts types) :
    p.told = types.map .str := by
  unfold told
  rw [h]
  cases types with
  | nil => rfl
  | cons type types => rfl

/-- All texts can be keys, so a provider is listed for each that it
tells. -/
theorem InTexts.listed {p : Provider σ} (h : p.InTexts) : p.listed = p.told := by
  obtain ⟨id, types, -, htypes⟩ := h
  unfold Provider.listed
  rw [told_of_types htypes, List.takeWhile_eq_self_iff]
  intro v hv
  obtain ⟨type, -, rfl⟩ := List.mem_map.1 hv
  rfl

/-- A provider in texts lists the types that it supports. -/
theorem InTexts.lists {p : Provider σ} (h : p.InTexts) (type : String) :
    p.lists (.str type) = p.supports type := by
  unfold Provider.lists supports
  rw [h.listed, Bool.eq_iff_iff, decide_eq_true_iff]
  unfold Value.isAmong
  rw [List.any_eq_true]
  constructor
  · rintro ⟨v, hv, hsame⟩
    rw [Value.same_str_iff] at hsame
    exact hsame ▸ hv
  · intro hv
    exact ⟨_, hv, (Value.same_str_iff _ _).2 rfl⟩

end Provider

/-- What is offered is no provider, or one with texts as its id and
types. -/
def Offer.InTexts : Offer σ → Prop
  | .provider p => p.InTexts
  | .value _ => True

namespace Registry

open Provider

-- ============================================================= history

/-- A call that changes a registry. -/
inductive Change (σ : Type) where
  | register (offer : Offer σ)
  | registerAll (offers : List (Offer σ))
  | unregister (name : Value)
  | clear

/-- The registry after a call, whether the call fails or not. -/
def Change.apply (r : Registry σ) : Change σ → Registry σ
  | .register offer => (r.register offer).1
  | .registerAll offers => (r.registerAll offers).1
  | .unregister name => (r.unregister name).1
  | .clear => {}

/-- What a call offers is in texts. -/
def Change.InTexts : Change σ → Prop
  | .register offer => offer.InTexts
  | .registerAll offers => ∀ offer ∈ offers, offer.InTexts
  | .unregister _ | .clear => True

/-- The registry after some calls. -/
def after (changes : List (Change σ)) : Registry σ := changes.foldl Change.apply {}

/-- The providers with one more, if it has an id that is given, a type, and
an id that none of them has. -/
def enrol (ps : List (Provider σ)) : Offer σ → Option (List (Provider σ))
  | .value _ => none
  | .provider p =>
      if (p.id.getD .null).isTruthy && !p.told.isEmpty && ps.all fun q => q.id ≠ p.id then
        some (ps ++ [p])
      else none

/-- The providers with several more, up to the first that is not
accepted. -/
def enrolAll (ps : List (Provider σ)) : List (Offer σ) → List (Provider σ)
  | [] => ps
  | offer :: offers =>
      match enrol ps offer with
      | none => ps
      | some ps => enrolAll ps offers

/-- What a call does to the providers. -/
def Change.applyTo (ps : List (Provider σ)) : Change σ → List (Provider σ)
  | .register offer => (enrol ps offer).getD ps
  | .registerAll offers => enrolAll ps offers
  | .unregister name => ps.filter fun p => !p.id.any fun own => own.same name
  | .clear => []

/-- The providers that are registered after some calls, in the order of
registration. -/
def registered (changes : List (Change σ)) : List (Provider σ) := changes.foldl Change.applyTo []

-- ======================================================== filled entries

/-- Every type in the index has an id. -/
def Filled (index : Keyed (List Value)) : Prop :=
  ∀ type ids, index.get? type = some ids → ids ≠ []

/-- An entry with an id keeps the index filled. -/
theorem Filled.put {index : Keyed (List Value)} (h : Filled index) {type : Value}
    (htype : type.canName = true) {ids : List Value} (hids : ids ≠ []) :
    Filled (index.put type ids) := by
  intro other found hget
  rw [Keyed.get?_put htype] at hget
  split at hget
  · cases hget
    exact hids
  · exact h other found hget

/-- Taking an entry out keeps the index filled. -/
theorem Filled.erase {index : Keyed (List Value)} (h : Filled index) {type : Value}
    (htype : type.canName = true) : Filled (index.erase type) := by
  intro other found hget
  rw [Keyed.get?_erase htype] at hget
  split at hget
  · cases hget
  · exact h other found hget

/-- Listing a provider for its types keeps the index filled. -/
theorem Filled.listForAll {index : Keyed (List Value)} (h : Filled index) (id : Value)
    (types : List Value) : Filled (Registry.listForAll id types index).1 := by
  induction types generalizing index with
  | nil => exact h
  | cons type types ih =>
      unfold Registry.listForAll
      by_cases htype : type.canName = true
      · rw [if_pos htype]
        apply ih
        unfold listFor
        dsimp only
        split
        · exact h
        · exact h.put htype (by simp)
      · rw [if_neg htype]
        exact h

/-- Taking a provider off the lists of its types keeps the index filled. -/
theorem Filled.unlistAll {index : Keyed (List Value)} (h : Filled index) (id : Value)
    (types : List Value) : Filled (Registry.unlistAll id types index).1 := by
  induction types generalizing index with
  | nil => exact h
  | cons type types ih =>
      unfold Registry.unlistAll
      by_cases htype : type.canName = true
      · rw [if_pos htype]
        apply ih
        unfold unlist
        split
        · exact h
        · split
          · exact h.erase htype
          next hrest => exact h.put htype hrest
      · rw [if_neg htype]
        exact h

/-- A registration keeps the index filled, accepted or not. -/
theorem Filled.register {r : Registry σ} (h : Filled r.index) (offer : Offer σ) :
    Filled (r.register offer).1.index := by
  unfold Registry.register
  split
  · exact h
  · exact h.listForAll _ _

/-- Several registrations keep the index filled. -/
theorem Filled.registerAll {r : Registry σ} (h : Filled r.index) (offers : List (Offer σ)) :
    Filled (r.registerAll offers).1.index := by
  induction offers generalizing r with
  | nil => exact h
  | cons offer offers ih =>
      have first := h.register offer
      unfold Registry.registerAll
      rcases hreg : r.register offer with ⟨r', journal, _ | fault⟩
      · rw [hreg] at first
        exact ih first
      · rw [hreg] at first
        exact first

/-- The end of a registration keeps the index filled. -/
theorem Filled.unregister {r : Registry σ} (h : Filled r.index) (id : Value) :
    Filled (r.unregister id).1.index := by
  unfold Registry.unregister
  split
  · exact h
  · exact h
  · exact h.unlistAll _ _

-- ======================================================== what calls do

section Steps

variable {r : Registry σ}

/-- An id is registered if a provider has it. -/
theorem has_iff_of_indexed (h : r.Indexed) (id : String) :
    r.providers.has (.str id) = true ↔ ∃ p ∈ r.all, p.id = some (.str id) := by
  rw [← not_iff_not, Bool.not_eq_true, Keyed.has_eq_false_iff]
  unfold Registry.all
  constructor
  · rintro hfresh ⟨p, hp, hid⟩
    obtain ⟨e, he, rfl⟩ := List.mem_map.1 hp
    have hnamed := (h.named e he).2
    rw [hid, Option.some.injEq] at hnamed
    have hsame := hfresh e he
    rw [← hnamed, Value.same_refl rfl] at hsame
    cases hsame
  · intro hfresh e he
    rw [Bool.eq_false_iff]
    intro hsame
    rw [Value.same_str_iff] at hsame
    apply hfresh
    refine ⟨e.2, List.mem_map.2 ⟨e, he, rfl⟩, ?_⟩
    rw [(h.named e he).2, hsame]

/-- A provider in texts is accepted if it has a given id, which is not
taken, and a type. -/
theorem accept_ok_iff {p : Provider σ} {id : String} {types : List String}
    (hid : p.id = some (.str id)) (htypes : p.types = .texts types)
    {found : Provider σ × Value × List Value} :
    r.accept (.provider p) = .ok found
      ↔ ((Value.str id).isTruthy = true ∧ p.told ≠ [] ∧ r.providers.has (.str id) = false)
        ∧ found = (p, .str id, p.told) := by
  have htypesOf : typesOf (.str id) p = if p.told = [] then
      .error (.provider s!"Provider \"{id}\" must support at least one resource type" (.str id))
      else .ok p.told := by
    rw [told_of_types htypes]
    unfold typesOf
    rw [htypes]
    cases types with
    | nil => rfl
    | cons type types => rfl
  have hcontains : r.providers.contains (.str id) = .ok (r.providers.has (.str id)) := rfl
  unfold accept
  simp only [hid, Option.getD_some, htypesOf, hcontains]
  by_cases hgiven : (Value.str id).isTruthy = true
  · by_cases hnone : p.told = []
    · simp [hgiven, hnone, bind, Except.bind]
    · by_cases hhas : r.providers.has (.str id) = true
      · simp [hgiven, hnone, hhas, bind, Except.bind]
      · simp [hgiven, hnone, hhas, bind, Except.bind, pure, Except.pure, eq_comm]
  · simp [hgiven, bind, Except.bind]

/-- Texts are all listed, so nothing goes wrong once a provider is
accepted. -/
theorem listForAll_texts (id : Value) (types : List String) (index : Keyed (List Value)) :
    (listForAll id (types.map .str) index).2 = none := by
  induction types generalizing index with
  | nil => rfl
  | cons type types ih => exact ih (listFor id (.str type) index)

/-- A provider that is accepted and listed is registered. -/
theorem register_of_accept {offer : Offer σ} {p : Provider σ} {id : Value} {types : List Value}
    (hacc : r.accept offer = .ok (p, id, types))
    (hlisted : (listForAll id types r.index).2 = none) :
    ∃ journal, r.register offer
      = (⟨r.providers.put id p, (listForAll id types r.index).1⟩, journal, none) := by
  unfold register
  rw [hacc]
  dsimp only
  rw [hlisted]
  exact ⟨_, rfl⟩

/-- What is offered in texts is refused, and then nothing changes; or it
goes to the end of the providers, and nothing goes wrong. -/
theorem register_cases (h : r.Indexed) {offer : Offer σ} (texts : offer.InTexts) :
    (∃ fault, r.register offer = (r, [], some fault) ∧ enrol r.all offer = none)
      ∨ ∃ r' journal, r.register offer = (r', journal, none)
        ∧ enrol r.all offer = some r'.all := by
  cases offer with
  | value v => exact .inl ⟨nameless, rfl, rfl⟩
  | provider p =>
      obtain ⟨id, types, hid, htypes⟩ := texts
      have hfresh : r.providers.has (.str id) = false ↔ ∀ q ∈ r.all, q.id ≠ p.id := by
        rw [← Bool.not_eq_true, has_iff_of_indexed h, hid]
        simp only [not_exists, not_and, ne_eq]
      have hadmits : ((p.id.getD .null).isTruthy && !p.told.isEmpty
          && r.all.all fun q => q.id ≠ p.id) = true
          ↔ (Value.str id).isTruthy = true ∧ p.told ≠ [] ∧ r.providers.has (.str id) = false := by
        simp only [hfresh, hid, Option.getD_some, Bool.and_eq_true, Bool.not_eq_true',
          List.isEmpty_eq_false_iff, List.all_eq_true, decide_eq_true_iff, and_assoc]
      cases hacc : r.accept (.provider p) with
      | error fault =>
          refine .inl ⟨fault, by rw [register, hacc], if_neg fun hok => ?_⟩
          have hfound := (accept_ok_iff hid htypes).2 ⟨hadmits.1 hok, rfl⟩
          rw [hacc] at hfound
          cases hfound
      | ok found =>
          obtain ⟨hok, rfl⟩ := (accept_ok_iff hid htypes).1 hacc
          have hlisted : (listForAll (.str id) p.told r.index).2 = none := by
            rw [told_of_types htypes]
            exact listForAll_texts _ _ _
          obtain ⟨journal, hreg⟩ := register_of_accept hacc hlisted
          refine .inr ⟨_, journal, hreg, ?_⟩
          simp only [enrol]
          rw [if_pos (hadmits.2 hok)]
          show some (r.all ++ [p]) = some ((r.providers.put (.str id) p).map Prod.snd)
          rw [Keyed.put_of_has_eq_false hok.2.2, List.map_append]
          rfl

/-- Several registrations leave the providers that the account tells of. -/
theorem all_registerAll (h : r.Indexed) {offers : List (Offer σ)}
    (texts : ∀ offer ∈ offers, offer.InTexts) :
    (r.registerAll offers).1.all = enrolAll r.all offers := by
  induction offers generalizing r with
  | nil => rfl
  | cons offer offers ih =>
      have hindexed := h.register offer
      unfold registerAll enrolAll
      rcases register_cases h (texts offer (by simp)) with
        ⟨fault, hreg, henrol⟩ | ⟨r', journal, hreg, henrol⟩
      · rw [hreg, henrol]
      · rw [hreg] at hindexed
        rw [hreg, henrol]
        exact ih hindexed fun o ho => texts o (by simp [ho])

/-- Removal takes the provider of the id, if there is one. -/
theorem all_unregister (h : r.Indexed) (name : Value) :
    (r.unregister name).1.all = r.all.filter fun p => !p.id.any fun own => own.same name := by
  have hfilter : (r.all.filter fun p => !p.id.any fun own => own.same name)
      = (r.providers.filter fun e => !e.1.same name).map Prod.snd := by
    unfold Registry.all
    rw [List.filter_map]
    congr 1
    refine List.filter_congr fun e he => ?_
    simp [(h.named e he).2]
  -- nothing is taken where no id is the same
  have hkept : (∀ e ∈ r.providers, e.1.same name = false) →
      r.all = (r.providers.filter fun e => !e.1.same name).map Prod.snd := by
    intro hnone
    rw [List.filter_eq_self.2 fun e he => by simp [hnone e he]]
    rfl
  rw [hfilter]
  unfold Registry.unregister
  by_cases hname : name.canName = true
  · have hfind := Keyed.find?_of_canName hname r.providers
    cases hget : r.providers.get? name with
    | none =>
        rw [hget] at hfind
        rw [hfind]
        exact hkept (Keyed.find?_eq_none hfind).2
    | some p =>
        rw [hfind, hget]
        rfl
  · rw [Keyed.find?_eq, if_neg hname]
    apply hkept
    intro e he
    rw [Bool.eq_false_iff]
    intro hsame
    exact hname (Value.canName_of_same (h.named e he).1 hsame)

end Steps

-- ============================================================ histories

/-- A registry agrees with the account of its history: the index is right
and has no empty entry, and the providers are those of the account. -/
structure Sound (r : Registry σ) (ps : List (Provider σ)) : Prop where
  indexed : r.Indexed
  filled : Filled r.index
  all : r.all = ps
  texts : ∀ p ∈ ps, p.InTexts

theorem Sound.nothing : ({} : Registry σ).Sound [] where
  indexed := .empty
  filled := by rintro type ids ⟨⟩
  all := rfl
  texts := by simp

/-- One more provider in texts keeps all of them in texts. -/
theorem texts_of_enrol {ps ps' : List (Provider σ)} (h : ∀ p ∈ ps, p.InTexts) {offer : Offer σ}
    (texts : offer.InTexts) (henrol : enrol ps offer = some ps') : ∀ p ∈ ps', p.InTexts := by
  cases offer with
  | value v => cases henrol
  | provider p =>
      simp only [enrol, Option.ite_none_right_eq_some] at henrol
      obtain ⟨-, henrol⟩ := henrol
      cases henrol
      intro q hq
      rcases List.mem_append.1 hq with hq | hq
      · exact h q hq
      · rw [List.mem_singleton.1 hq]
        exact texts

/-- Several more providers in texts keep all of them in texts. -/
theorem texts_of_enrolAll {ps : List (Provider σ)} (h : ∀ p ∈ ps, p.InTexts)
    {offers : List (Offer σ)} (texts : ∀ offer ∈ offers, offer.InTexts) :
    ∀ p ∈ enrolAll ps offers, p.InTexts := by
  induction offers generalizing ps with
  | nil => exact h
  | cons offer offers ih =>
      unfold enrolAll
      cases henrol : enrol ps offer with
      | none => exact h
      | some ps' =>
          exact ih (texts_of_enrol h (texts offer (by simp)) henrol)
            fun o ho => texts o (by simp [ho])

/-- Every call does to a registry what it does to the account. -/
theorem Sound.apply {r : Registry σ} {ps : List (Provider σ)} (h : r.Sound ps)
    {change : Change σ} (texts : change.InTexts) :
    (change.apply r).Sound (change.applyTo ps) := by
  obtain ⟨indexed, filled, rfl, inTexts⟩ := h
  cases change with
  | register offer =>
      refine ⟨indexed.register offer, filled.register offer, ?_, ?_⟩
      · show (r.register offer).1.all = (enrol r.all offer).getD r.all
        rcases register_cases indexed texts with
          ⟨fault, hreg, henrol⟩ | ⟨r', journal, hreg, henrol⟩
        · rw [hreg, henrol]
          rfl
        · rw [hreg, henrol]
          rfl
      · show ∀ p ∈ (enrol r.all offer).getD r.all, p.InTexts
        cases henrol : enrol r.all offer with
        | none => exact inTexts
        | some ps' => exact texts_of_enrol inTexts texts henrol
  | registerAll offers =>
      exact ⟨indexed.registerAll offers, filled.registerAll offers, all_registerAll indexed texts,
        texts_of_enrolAll inTexts texts⟩
  | unregister name =>
      refine ⟨indexed.unregister name, filled.unregister name, all_unregister indexed name, ?_⟩
      exact fun p hp => inTexts p (List.mem_filter.1 hp).1
  | clear => exact .nothing

/-- A registry agrees with the account after any changes. -/
theorem Sound.foldl {r : Registry σ} {ps : List (Provider σ)} (h : r.Sound ps)
    {changes : List (Change σ)} (texts : ∀ c ∈ changes, c.InTexts) :
    (changes.foldl Change.apply r).Sound (changes.foldl Change.applyTo ps) := by
  induction changes generalizing r ps with
  | nil => exact h
  | cons change changes ih =>
      exact ih (h.apply (texts change (by simp))) fun c hc => texts c (by simp [hc])

/-- A registry agrees with the account after every history. -/
theorem sound_after {changes : List (Change σ)} (texts : ∀ c ∈ changes, c.InTexts) :
    (after changes).Sound (registered changes) :=
  Sound.nothing.foldl texts

-- ============================================================== look-up

namespace Sound

variable {r : Registry σ} {ps : List (Provider σ)} (h : r.Sound ps)

include h in
/-- The providers of a type are those that support it, in order of the
account. -/
theorem forType_eq (type : String) :
    r.forType (.str type) = .ok (ps.filter fun p => p.supports type) := by
  rw [h.indexed.forType_eq rfl, h.all]
  congr 1
  exact List.filter_congr fun p hp => (h.texts p hp).lists type

include h in
/-- A type is supported if one of them supports it. -/
theorem supports_eq (type : String) :
    r.supports (.str type) = .ok (ps.any fun p => p.supports type) := by
  have hagrees := h.indexed.agrees (.str type) rfl
  have hhas : r.index.has (.str type) = (idsFor r.index (.str type) ≠ [] : Bool) := by
    unfold Keyed.has idsFor
    cases hget : r.index.get? (.str type) with
    | none => rfl
    | some ids =>
        have hids := h.filled _ _ hget
        simp [hids]
  show Except.ok (r.index.has (.str type)) = _
  rw [hhas, hagrees, ← h.all]
  congr 1
  have hlists : ∀ e ∈ r.providers, e.2.lists (.str type) = e.2.supports type := by
    intro e he
    apply InTexts.lists
    apply h.texts
    rw [← h.all]
    exact List.mem_map.2 ⟨e, he, rfl⟩
  rw [Bool.eq_iff_iff, decide_eq_true_iff, List.any_eq_true, ne_eq, List.map_eq_nil_iff,
    List.filter_eq_nil_iff]
  unfold Registry.all
  simp only [List.mem_map, exists_exists_and_eq_and]
  constructor
  · intro hsome
    by_contra hnone
    apply hsome
    intro e he hlist
    rw [hlists e he] at hlist
    exact hnone ⟨e, he, hlist⟩
  · rintro ⟨e, he, hsupports⟩ hnone
    apply hnone e he
    rw [hlists e he]
    exact hsupports

include h in
/-- An id that is listed for a type is that of a provider. -/
theorem get?_of_mem_idsFor {type : String} {id : Value} (hid : id ∈ idsFor r.index (.str type)) :
    ∃ p ∈ ps, r.get? id = .ok (some p) := by
  rw [h.indexed.agrees (.str type) rfl] at hid
  obtain ⟨e, he, rfl⟩ := List.mem_map.1 hid
  have hmem := (List.mem_filter.1 he).1
  refine ⟨e.2, ?_, ?_⟩
  · rw [← h.all]
    exact List.mem_map.2 ⟨e, hmem, rfl⟩
  · unfold Registry.get?
    rw [Keyed.find?_of_canName (h.indexed.named e hmem).1]
    exact congrArg Except.ok (h.indexed.isMapping.get?_of_mem hmem)

end Sound

/-- A search among providers whose answers are known. -/
theorem answer_firstCapable {r : Requirement} {ps : List (Provider σ)} {able : Provider σ → Bool}
    (answers : ∀ p ∈ ps, p.Answers r (able p)) (d : Desk σ) :
    ((firstCapable r ps).run d).1 = .ok (ps.find? able) := by
  induction ps generalizing d with
  | nil => rfl
  | cons p ps ih =>
      have hfirst := answers p (by simp) d
      unfold firstCapable
      rw [run_bind]
      rcases hrun : (p.canProvide r).run d with ⟨answer, d'⟩
      rw [hrun] at hfirst
      cases hfirst
      rw [List.find?_cons]
      cases able p with
      | true => rfl
      | false => exact ih (fun q hq => answers q (by simp [hq])) d'

/-- The provider for a requirement is the first that tells the type and
says that it can supply the requirement. -/
theorem Sound.answer_find? {r : Registry σ} {ps : List (Provider σ)} (h : r.Sound ps)
    {requirement : Requirement} {type : String} (htype : requirement.type = .str type)
    {able : Provider σ → Bool}
    (answers : ∀ p ∈ ps, p.supports type = true → p.Answers requirement (able p)) (d : Desk σ) :
    ((r.find? requirement).run d).1 = .ok (ps.find? fun p => p.supports type && able p) := by
  have hrun : (r.find? requirement).run d
      = (firstCapable requirement (ps.filter fun p => p.supports type)).run d := by
    unfold Registry.find?
    rw [htype, h.forType_eq]
    rfl
  have hanswers : ∀ p ∈ ps.filter fun p => p.supports type, p.Answers requirement (able p) := by
    intro p hp
    obtain ⟨hmem, hsupports⟩ := List.mem_filter.1 hp
    exact answers p hmem hsupports
  rw [hrun, answer_firstCapable hanswers, List.find?_filter]
  simp only [Bool.decide_and, Bool.decide_eq_true]

-- ========================================================= main result

/-- After any history of calls with providers in texts, a registry has the
providers of the account and finds what the account tells. By type it finds
all that tell the type, in the order of registration, and a type is
supported if there is one; for a requirement it finds the first of them
that says that it can supply it. Every id that a look-up meets leads to a
registered provider, and a registration that fails changes nothing. -/
theorem lookups_follow_history {changes : List (Change σ)} (texts : ∀ c ∈ changes, c.InTexts) :
    let r := after changes
    let ps := registered changes
    r.all = ps
    ∧ (∀ type, r.forType (.str type) = .ok (ps.filter fun p => p.supports type))
    ∧ (∀ type, r.supports (.str type) = .ok (ps.any fun p => p.supports type))
    ∧ (∀ requirement type, ∀ able : Provider σ → Bool, requirement.type = .str type →
        (∀ p ∈ ps, p.supports type = true → p.Answers requirement (able p)) →
        ∀ d, ((r.find? requirement).run d).1
          = .ok (ps.find? fun p => p.supports type && able p))
    ∧ (∀ type, ∀ id ∈ idsFor r.index (.str type), ∃ p ∈ ps, r.get? id = .ok (some p))
    ∧ ∀ offer, offer.InTexts → ∀ r' journal fault,
        r.register offer = (r', journal, some fault) → r' = r := by
  intro r ps
  have h : r.Sound ps := sound_after texts
  refine ⟨h.all, h.forType_eq, h.supports_eq, ?_, ?_, ?_⟩
  · intro requirement type able htype answers d
    exact h.answer_find? htype answers d
  · intro type id hid
    exact h.get?_of_mem_idsFor hid
  · intro offer hoffer r' journal fault hreg
    rcases register_cases h.indexed hoffer with ⟨fault', hsame, -⟩ | ⟨r'', journal', hok, -⟩
    · rw [hreg] at hsame
      cases hsame
      rfl
    · rw [hreg] at hok
      cases hok

/-- A provider of some types that supplies everything under one key. -/
def keeper (id : String) (types : List String) (key : String) : Provider Unit where
  id := some (.str id)
  types := .texts types
  canProvide r := return r.key.same (.str key)
  merge
    | first :: _ => pure first
    | [] => throw (.noPosition "nothing to merge")
  validateMerged _ := pure .ok
  provide _ _ := pure (.value (.str id))

/-- A provider that tells a type twice, is removed and comes back behind
the others; a second one of its id is refused. -/
theorem returning_provider_is_last :
    let a := keeper "a" ["queue", "queue", "topic"] "jobs"
    let b := keeper "b" ["queue"] "jobs"
    let c := keeper "c" ["topic"] "mail"
    let changes : List (Change Unit) := [.register (.provider c), .clear,
      .registerAll [.provider a, .provider b, .provider a, .provider c],
      .unregister (.str "a"), .register (.provider a), .register (.provider c),
      .unregister (.str "c")]
    let ids := fun ps : List (Provider Unit) => ps.map Provider.id
    let jobs : Requirement := ⟨.str "queue", .str "jobs", [], .null, .absent⟩
    (∀ change ∈ changes, change.InTexts)
      ∧ ((after changes).forType (.str "queue")).map ids = .ok [some (.str "b"), some (.str "a")]
      ∧ ((after changes).forType (.str "topic")).map ids = .ok [some (.str "a")]
      ∧ (after changes).supports (.str "topic") = .ok true
      ∧ (after (changes ++ [.unregister (.str "a")])).supports (.str "topic") = .ok false
      ∧ ((((after changes).find? jobs).run ⟨(), []⟩).1.map fun found => found.bind Provider.id)
        = .ok (some (.str "b")) := by
  intro a b c changes ids jobs
  have inTexts : ∀ id types key, (keeper id types key).InTexts := fun id types key =>
    ⟨id, types, rfl, rfl⟩
  have texts : ∀ change ∈ changes, change.InTexts := by
    simp only [changes, List.forall_mem_cons, Change.InTexts, Offer.InTexts, a, b, c, inTexts]
    simp
  have texts' : ∀ change ∈ changes ++ [.unregister (.str "a")], change.InTexts := by
    intro change hchange
    rcases List.mem_append.1 hchange with hchange | hchange
    · exact texts change hchange
    · rw [List.mem_singleton.1 hchange]
      trivial
  obtain ⟨-, forType, supports, find, -, -⟩ := lookups_follow_history texts
  obtain ⟨-, -, supports', -, -, -⟩ := lookups_follow_history texts'
  have answers : ∀ p ∈ registered changes, p.supports "queue" = true →
      p.Answers jobs true := by
    have hps : registered changes = [b, a] := rfl
    rw [hps]
    intro p hp _ d
    rcases List.mem_cons.1 hp with rfl | hp
    · rfl
    · rw [List.mem_singleton.1 hp]
      rfl
  refine ⟨texts, ?_, ?_, ?_, ?_, ?_⟩
  · rw [forType]
    rfl
  · rw [forType]
    rfl
  · rw [supports]
    rfl
  · rw [supports']
    rfl
  · rw [find jobs "queue" (fun _ => true) rfl answers]
    rfl

end Registry

end Depot
