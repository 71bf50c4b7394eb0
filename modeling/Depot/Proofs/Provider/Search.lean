/-
Which provider a registry finds. For a requirement it is the first one, in
the order of registration, that is listed for the type and says that it
can supply the requirement (`FirstCapable`); the search asks the listed
providers one after the other and stops at the first that agrees
(`find_ok`).

A backend searches again in each phase. What makes the searches agree is
that the answers depend on the type and the key alone
(`AsksTypeAndKey`): then `FirstCapable` is the same for two requirements
of one type and key (`FirstCapable.congr`), and there is only one provider
it can hold of (`FirstCapable.unique`).
-/
import Depot.Proofs.Provider.Index
import Depot.Proofs.Provider.Merging

namespace Depot

variable {σ : Type}

-- =========================================================== promises

namespace Provider

/-- Whether the provider can supply a requirement depends only on the type
and the key. -/
def AsksTypeAndKey (p : Provider σ) : Prop :=
  ∀ r r' d d', r.type = r'.type → r.key = r'.key →
    ((p.canProvide r).run d).1 = ((p.canProvide r').run d').1

/-- What the provider merges has the type and the key of the first
request. -/
def KeepsTypeAndKey (p : Provider σ) : Prop :=
  ∀ first rest d d' merged, (p.merge (first :: rest)).run d = (.ok merged, d') →
    merged.type = first.type ∧ merged.key = first.key

/-- What the provider says about a requirement whenever it is asked. -/
def Answers (p : Provider σ) (r : Requirement) (answer : Bool) : Prop :=
  ∀ d, ((p.canProvide r).run d).1 = .ok answer

/-- What keeps type and key keeps the name of the resource. -/
theorem KeepsTypeAndKey.resourceKey {p : Provider σ} (h : p.KeepsTypeAndKey)
    {first merged : Request σ} {rest : List (Request σ)} {d d' : Desk σ}
    (hrun : (p.merge (first :: rest)).run d = (.ok merged, d')) :
    merged.resourceKey = first.resourceKey := by
  obtain ⟨htype, hkey⟩ := h first rest d d' merged hrun
  unfold Requirement.resourceKey
  rw [htype, hkey]

/-- An answer that depends on the type and the key is given again for
them. -/
theorem AsksTypeAndKey.answers {p : Provider σ} (h : p.AsksTypeAndKey) {r r' : Requirement}
    (htype : r.type = r'.type) (hkey : r.key = r'.key) {d d' : Desk σ} {answer : Bool}
    (hrun : (p.canProvide r).run d = (.ok answer, d')) : p.Answers r' answer := by
  intro e
  rw [← h r r' d e htype hkey, hrun]

end Provider

namespace Kind

variable {C : Type}

/-- A typed provider decides by type and key alone. -/
theorem asksTypeAndKey (k : Kind σ C) : k.provider.AsksTypeAndKey := by
  intro r r' d d' htype _
  show Except.ok (r.type.isAmong k.types) = Except.ok (r'.type.isAmong k.types)
  rw [htype]

/-- What a kind of resource merges has the type and the key of the first
request, whatever its configurations are. -/
theorem keepsTypeAndKey (k : Kind σ C) : k.provider.KeepsTypeAndKey := by
  intro first rest d d' merged h
  cases rest with
  | nil =>
      cases h
      exact ⟨rfl, rfl⟩
  | cons second rest =>
      obtain ⟨config, verdict, priority, -, -, -, -, rfl⟩ := mergeRequests_ok h
      exact ⟨rfl, rfl⟩

end Kind

namespace Registry

open Provider

-- ====================================================== first capable

/-- The provider is the first that is listed for the type of the
requirement and says that it can supply it. -/
def FirstCapable (reg : Registry σ) (r : Requirement) (p : Provider σ) : Prop :=
  ∃ before after, reg.all = before ++ p :: after
    ∧ p.lists r.type = true ∧ p.Answers r true
    ∧ ∀ q ∈ before, q.lists r.type = true → q.Answers r false

variable {reg : Registry σ}

/-- Requirements of one type and key have one first capable provider. -/
theorem FirstCapable.congr (asks : ∀ p ∈ reg.all, p.AsksTypeAndKey) {r r' : Requirement}
    {p : Provider σ} (h : reg.FirstCapable r p) (htype : r.type = r'.type)
    (hkey : r.key = r'.key) : reg.FirstCapable r' p := by
  obtain ⟨before, after, hall, hlists, hyes, hbefore⟩ := h
  have again : ∀ q ∈ reg.all, ∀ answer, q.Answers r answer → q.Answers r' answer := by
    intro q hq answer hq' d
    rw [← asks q hq r r' d d htype hkey]
    exact hq' d
  refine ⟨before, after, hall, htype ▸ hlists, again p (by simp [hall]) _ hyes, ?_⟩
  intro q hq hqlists
  exact again q (by simp [hall, hq]) _ (hbefore q hq (htype ▸ hqlists))

/-- A provider does not both agree and decline. -/
theorem not_answers_both {p : Provider σ} {r : Requirement} (d : Desk σ) (yes : p.Answers r true)
    (no : p.Answers r false) : False := by
  have h := (yes d).symm.trans (no d)
  cases h

/-- There is one first capable provider at most. -/
theorem FirstCapable.unique {r : Requirement} {p q : Provider σ} (d : Desk σ)
    (hp : reg.FirstCapable r p) (hq : reg.FirstCapable r q) : p = q := by
  obtain ⟨before, after, hall, hlists, hyes, hbefore⟩ := hp
  obtain ⟨before', after', hall', hlists', hyes', hbefore'⟩ := hq
  -- of two places in one list, either they are the same or one is before
  have hsplit := hall.symm.trans hall'
  rcases List.append_eq_append_iff.1 hsplit with ⟨mid, hmid, hrest⟩ | ⟨mid, hmid, hrest⟩
  · cases mid with
    | nil =>
        injection hrest with hpq
    | cons x mid =>
        injection hrest with hx
        subst hx
        exact (not_answers_both d hyes (hbefore' p (by simp [hmid]) hlists)).elim
  · cases mid with
    | nil =>
        injection hrest with hpq
        exact hpq.symm
    | cons x mid =>
        injection hrest with hx
        subst hx
        exact (not_answers_both d hyes' (hbefore q (by simp [hmid]) hlists')).elim

-- ========================================================== searching

/-- A search among providers that finds one: it agreed, and those in front
of it declined. -/
theorem firstCapable_ok {r : Requirement} {ps : List (Provider σ)}
    (asks : ∀ p ∈ ps, p.AsksTypeAndKey) {d d' : Desk σ} {p : Provider σ}
    (h : (firstCapable r ps).run d = (.ok (some p), d')) :
    ∃ before after, ps = before ++ p :: after ∧ p.Answers r true
      ∧ ∀ q ∈ before, q.Answers r false := by
  induction ps generalizing d with
  | nil => cases h
  | cons q ps ih =>
      obtain ⟨answer, d₁, hasked, h⟩ := run_bind_ok.1 h
      have hq := (asks q (by simp)).answers rfl rfl hasked
      cases answer with
      | true =>
          cases h
          exact ⟨[], ps, rfl, hq, by simp⟩
      | false =>
          obtain ⟨before, after, rfl, hp, hbefore⟩ :=
            ih (fun p hp => asks p (by simp [hp])) h
          refine ⟨q :: before, after, rfl, hp, ?_⟩
          intro q' hq'
          rcases List.mem_cons.1 hq' with rfl | hq'
          · exact hq
          · exact hbefore q' hq'

/-- A type that providers can be looked up for can name an entry. -/
theorem canName_of_forType_ok {type : Value} {ps : List (Provider σ)}
    (h : reg.forType type = .ok ps) : type.canName = true := by
  unfold forType at h
  rw [Keyed.find?_eq] at h
  split at h
  · assumption
  · cases h

/-- The provider that a registry finds is the first capable one. -/
theorem find_ok (indexed : reg.Indexed) (asks : ∀ p ∈ reg.all, p.AsksTypeAndKey)
    {r : Requirement} {d d' : Desk σ} {p : Provider σ}
    (h : (reg.find r).run d = (.ok p, d')) : reg.FirstCapable r p := by
  obtain ⟨found, d₁, hfound, h⟩ := run_bind_ok.1 h
  obtain ⟨ps, d₂, hlook, hfirst⟩ := run_bind_ok.1 hfound
  cases found with
  | none => cases h
  | some p' =>
      cases h
      injection hlook with hlook hd
      rw [indexed.forType_eq (canName_of_forType_ok hlook)] at hlook
      injection hlook with hps
      subst hps
      have hasks : ∀ p ∈ reg.all.filter fun p => p.lists r.type, p.AsksTypeAndKey :=
        fun p hp => asks p (List.mem_filter.1 hp).1
      obtain ⟨before, after, hsplit, hp, hbefore⟩ := firstCapable_ok hasks hfirst
      -- the split of the listed providers is one of all providers
      obtain ⟨front, back, hall, rfl, hback⟩ := List.filter_eq_append_iff.1 hsplit
      obtain ⟨skipped, rest, rfl, hskipped, hlists, -⟩ := List.filter_eq_cons_iff.1 hback
      refine ⟨front ++ skipped, rest, by rw [hall, List.append_assoc], hlists, hp, ?_⟩
      intro q hq hqlists
      rcases List.mem_append.1 hq with hq | hq
      · exact hbefore q (List.mem_filter.2 ⟨hq, hqlists⟩)
      · exact absurd hqlists (hskipped q hq)

end Registry

end Depot
