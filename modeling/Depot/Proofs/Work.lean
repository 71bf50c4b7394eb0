/-
Running work. Work is a function from what it goes on (a desk, or a desk
at a scope) to an outcome and what is left; this file says once what each
way of building work does when it is run, so that no later proof opens a
monad. Results that take no work are the simplest case (`bind_eq_ok`).

The two inversions are what the rest of the theory uses most. A sequence
that succeeded went through an intermediate result (`run_bind_ok`); one
that failed did so in its first half, or in its second half after the
first had succeeded (`run_bind_error`). Neither half can be skipped and
nothing is undone: what the first half left is what the second starts
from.
-/
import Depot.Work
import Mathlib.Data.List.Forall2

namespace Depot

variable {S σ α β : Type}

-- ============================================================ plain runs

/-- A sequence without faults, run. -/
theorem bind_apply (x : StateM S α) (f : α → StateM S β) (s : S) :
    (x >>= f) s = f (x s).1 (x s).2 := rfl

/-- A change of what the work goes on, run. -/
theorem modify_apply (f : S → S) (s : S) :
    (modify f : StateM S Unit) s = ((), f s) := rfl

-- ============================================================== results

/-- A sequence of results that succeeded went through an intermediate
one. -/
theorem bind_eq_ok {x : Except Fault α} {f : α → Except Fault β} {b : β} :
    (x >>= f) = .ok b ↔ ∃ a, x = .ok a ∧ f a = .ok b := by
  cases x with
  | error fault =>
      constructor
      · intro h
        cases h
      · rintro ⟨a, h, -⟩
        cases h
  | ok a =>
      constructor
      · intro h
        exact ⟨a, rfl, h⟩
      · rintro ⟨a', h, hf⟩
        cases h
        exact hf

/-- A sequence of results that failed did so in one of its halves. -/
theorem bind_eq_error {x : Except Fault α} {f : α → Except Fault β} {fault : Fault} :
    (x >>= f) = .error fault ↔ x = .error fault ∨ ∃ a, x = .ok a ∧ f a = .error fault := by
  cases x with
  | error fault' =>
      have hrun : ((Except.error fault' : Except Fault α) >>= f) = .error fault' := rfl
      rw [hrun]
      simp
  | ok a =>
      have hrun : ((Except.ok a : Except Fault α) >>= f) = f a := rfl
      rw [hrun]
      simp

/-- A walk whose every step succeeds. -/
theorem mapM_ok {f : α → Except Fault β} {g : α → β} {xs : List α}
    (h : ∀ x ∈ xs, f x = .ok (g x)) : xs.mapM f = .ok (xs.map g) := by
  induction xs with
  | nil => rfl
  | cons x xs ih =>
      rw [List.mapM_cons, h x List.mem_cons_self, ih fun y hy => h y (List.mem_cons_of_mem x hy)]
      rfl

/-- A walk that never fails is a plain one that leaves out. -/
theorem filterMapM_ok {f : α → Except Fault (Option β)} {g : α → Option β} {xs : List α}
    (h : ∀ x ∈ xs, f x = .ok (g x)) : xs.filterMapM f = .ok (xs.filterMap g) := by
  induction xs with
  | nil => rfl
  | cons x xs ih =>
      rw [List.filterMapM_cons, h x List.mem_cons_self,
        ih fun y hy => h y (List.mem_cons_of_mem x hy), List.filterMap_cons]
      cases g x with
      | none => rfl
      | some y => rfl

/-- A walk that never fails and collects lists is a plain one that does. -/
theorem flatMapM_ok {f : α → Except Fault (List β)} {g : α → List β} {xs : List α}
    (h : ∀ x ∈ xs, f x = .ok (g x)) : xs.flatMapM f = .ok (xs.flatMap g) := by
  induction xs with
  | nil => rfl
  | cons x xs ih =>
      rw [List.flatMapM_cons, h x List.mem_cons_self,
        ih fun y hy => h y (List.mem_cons_of_mem x hy), List.flatMap_cons]
      rfl

/-- A walk that joins the results of its steps walks and joins them then. -/
theorem flatMapM_eq (f : α → Except Fault (List β)) (xs : List α) :
    xs.flatMapM f = do return (← xs.mapM f).flatten := by
  induction xs with
  | nil => rfl
  | cons x xs ih =>
      rw [List.flatMapM_cons, ih, List.mapM_cons]
      cases f x with
      | error fault => rfl
      | ok ys => cases xs.mapM f with
        | error fault => rfl
        | ok rest => rfl

/-- Only what the steps are on the items of a list matters to a walk. -/
theorem mapM_congr {f g : α → Except Fault β} {xs : List α} (h : ∀ x ∈ xs, f x = g x) :
    xs.mapM f = xs.mapM g := by
  induction xs with
  | nil => rfl
  | cons x xs ih =>
      rw [List.mapM_cons, List.mapM_cons, h x List.mem_cons_self,
        ih fun y hy => h y (List.mem_cons_of_mem x hy)]

theorem flatMapM_congr {f g : α → Except Fault (List β)} {xs : List α}
    (h : ∀ x ∈ xs, f x = g x) : xs.flatMapM f = xs.flatMapM g := by
  rw [flatMapM_eq, flatMapM_eq, mapM_congr h]

/-- Items that are changed first, where each result changes along. -/
theorem mapM_map_of_map {α' β' : Type} {e : α → α'} {g : β → β'} {f : α → Except Fault β}
    {f' : α' → Except Fault β'} (h : ∀ a, f' (e a) = (f a).map g) (xs : List α) :
    (xs.map e).mapM f' = (xs.mapM f).map (List.map g) := by
  induction xs with
  | nil => rfl
  | cons x xs ih =>
      rw [List.map_cons, List.mapM_cons, List.mapM_cons, h, ih]
      cases f x with
      | error fault => rfl
      | ok y =>
          cases xs.mapM f with
          | error fault => rfl
          | ok ys => rfl

/-- Each result of a list comes from an item. -/
theorem exists_of_mapM_ok {f : α → Except Fault β} {xs : List α} {ys : List β}
    (h : xs.mapM f = .ok ys) : ∀ y ∈ ys, ∃ x ∈ xs, f x = .ok y := by
  induction xs generalizing ys with
  | nil =>
      cases h
      simp
  | cons x xs ih =>
      rw [List.mapM_cons] at h
      obtain ⟨z, hz, h⟩ := bind_eq_ok.1 h
      obtain ⟨zs, hzs, h⟩ := bind_eq_ok.1 h
      cases h
      intro y hy
      rcases List.mem_cons.1 hy with rfl | hy
      · exact ⟨x, by simp, hz⟩
      · obtain ⟨x', hx', hfx'⟩ := ih hzs y hy
        exact ⟨x', by simp [hx'], hfx'⟩

/-- Each item of a list has a result. -/
theorem mem_of_mapM_ok {f : α → Except Fault β} {xs : List α} {ys : List β}
    (h : xs.mapM f = .ok ys) {x : α} (hx : x ∈ xs) : ∃ y ∈ ys, f x = .ok y := by
  induction xs generalizing ys with
  | nil => cases hx
  | cons x' xs ih =>
      rw [List.mapM_cons] at h
      obtain ⟨y, hy, h⟩ := bind_eq_ok.1 h
      obtain ⟨rest, hrest, h⟩ := bind_eq_ok.1 h
      cases h
      rcases List.mem_cons.1 hx with rfl | hx
      · exact ⟨y, by simp, hy⟩
      · obtain ⟨z, hz, hfx⟩ := ih hrest hx
        exact ⟨z, by simp [hz], hfx⟩

/-- Results that are known wherever there are any are known for the list. -/
theorem eq_map_of_mapM_ok {f : α → Except Fault β} {g : α → β} {xs : List α}
    {ys : List β} (hknown : ∀ x ∈ xs, ∀ y, f x = .ok y → y = g x) (h : xs.mapM f = .ok ys) :
    ys = xs.map g := by
  induction xs generalizing ys with
  | nil =>
      cases h
      rfl
  | cons x xs ih =>
      rw [List.mapM_cons] at h
      obtain ⟨y, hy, h⟩ := bind_eq_ok.1 h
      obtain ⟨rest, hrest, h⟩ := bind_eq_ok.1 h
      cases h
      rw [hknown x List.mem_cons_self y hy,
        ih (fun z hz => hknown z (List.mem_cons_of_mem x hz)) hrest, List.map_cons]

/-- Where a list has no results, an item has none. -/
theorem exists_of_mapM_error {f : α → Except Fault β} {xs : List α} {fault : Fault}
    (h : xs.mapM f = .error fault) : ∃ x ∈ xs, f x = .error fault := by
  induction xs with
  | nil => cases h
  | cons x xs ih =>
      rw [List.mapM_cons] at h
      rcases bind_eq_error.1 h with hx | ⟨y, -, h⟩
      · exact ⟨x, List.mem_cons_self, hx⟩
      · rcases bind_eq_error.1 h with hrest | ⟨rest, -, h⟩
        · obtain ⟨x', hx', hfx'⟩ := ih hrest
          exact ⟨x', List.mem_cons_of_mem x hx', hfx'⟩
        · cases h

/-- A list has results if each item has one. -/
theorem exists_mapM_ok_iff {f : α → Except Fault β} {xs : List α} :
    (∃ ys, xs.mapM f = .ok ys) ↔ ∀ x ∈ xs, ∃ y, f x = .ok y := by
  constructor
  · rintro ⟨ys, h⟩ x hx
    obtain ⟨y, -, hy⟩ := mem_of_mapM_ok h hx
    exact ⟨y, hy⟩
  · intro hall
    cases h : xs.mapM f with
    | ok ys => exact ⟨ys, rfl⟩
    | error fault =>
        obtain ⟨x, hx, hfails⟩ := exists_of_mapM_error h
        obtain ⟨y, hy⟩ := hall x hx
        cases hfails.symm.trans hy

/-- Copies of an item have copies of its result. -/
theorem mapM_replicate_of_ok {f : α → Except Fault β} {x : α} {y : β} (h : f x = .ok y) (n : Nat) :
    (List.replicate n x).mapM f = .ok (List.replicate n y) := by
  induction n with
  | zero => rfl
  | succ n ih =>
      rw [List.replicate_succ, List.mapM_cons, h, ih]
      rfl

/-- A loop that ended without a fault, and cannot end early, went through
every item without one. -/
theorem forIn_eq_ok {xs : List α} {f : α → Unit → Except Fault (ForInStep Unit)}
    (goesOn : ∀ x, f x () ≠ .ok (.done ())) (h : forIn xs () f = .ok ()) :
    ∀ x ∈ xs, f x () = .ok (.yield ()) := by
  induction xs with
  | nil => simp
  | cons x xs ih =>
      rw [List.forIn_cons] at h
      obtain ⟨next, hx, h⟩ := bind_eq_ok.1 h
      cases next with
      | done u => exact absurd hx (goesOn x)
      | yield u =>
          intro y hy
          rcases List.mem_cons.1 hy with rfl | hy
          · exact hx
          · exact ih h y hy

/-- A loop that goes on without a fault at every item ends without one. -/
theorem forIn_of_forall {xs : List α} {f : α → Unit → Except Fault (ForInStep Unit)}
    (h : ∀ x ∈ xs, f x () = .ok (.yield ())) : forIn xs () f = .ok () := by
  induction xs with
  | nil => rfl
  | cons x xs ih =>
      rw [List.forIn_cons, h x (by simp)]
      exact ih fun y hy => h y (by simp [hy])

-- ===================================================== runs with faults

section Faults

variable {w : ExceptT Fault (StateM S) α}
  {k : α → ExceptT Fault (StateM S) β}

@[simp] theorem run_pure (a : α) (s : S) :
    (pure a : ExceptT Fault (StateM S) α).run s = (.ok a, s) := rfl

@[simp] theorem run_throw (fault : Fault) (s : S) :
    (throw fault : ExceptT Fault (StateM S) α).run s = (.error fault, s) := rfl

/-- A sequence of work: the second half runs where the first left off,
unless the first failed. -/
theorem run_bind (w : ExceptT Fault (StateM S) α)
    (k : α → ExceptT Fault (StateM S) β) (s : S) :
    (w >>= k).run s = match w.run s with
      | (.ok a, s') => (k a).run s'
      | (.error fault, s') => (.error fault, s') := by
  show (ExceptT.bindCont k (w.run s).1 : StateM S _) (w.run s).2 = _
  rcases w.run s with ⟨a | a, s'⟩
  · rfl
  · rfl

/-- After a first half that succeeded the second half remains. -/
theorem run_bind_of_ok {s s' : S} {a : α} (h : w.run s = (.ok a, s')) :
    (w >>= k).run s = (k a).run s' := by
  rw [run_bind, h]

/-- A sequence that succeeded went through an intermediate result. -/
theorem run_bind_ok {s s'' : S} {b : β} :
    (w >>= k).run s = (.ok b, s'') ↔
      ∃ a s', w.run s = (.ok a, s') ∧ (k a).run s' = (.ok b, s'') := by
  rw [run_bind]
  constructor
  · intro h
    split at h
    next a s' hw => exact ⟨a, s', hw, h⟩
    next fault s' hw => cases h
  · rintro ⟨a, s', hw, hk⟩
    rw [hw]
    exact hk

/-- A sequence that failed did so in one of its halves. -/
theorem run_bind_error {s s'' : S} {fault : Fault} :
    (w >>= k).run s = (.error fault, s'') ↔
      w.run s = (.error fault, s'')
        ∨ ∃ a s', w.run s = (.ok a, s') ∧ (k a).run s' = (.error fault, s'') := by
  rw [run_bind]
  constructor
  · intro h
    split at h
    next a s' hw => exact Or.inr ⟨a, s', hw, h⟩
    next fault' s' hw =>
      cases h
      exact Or.inl hw
  · rintro (hw | ⟨a, s', hw, hk⟩)
    · rw [hw]
    · rw [hw]
      exact hk

/-- Work on the items of a list that succeeded did so on each of them. -/
theorem run_mapM_ok {f : α → ExceptT Fault (StateM S) β} {xs : List α} {ys : List β} {s s' : S}
    (h : (xs.mapM f).run s = (.ok ys, s')) :
    List.Forall₂ (fun x y => ∃ t t', (f x).run t = (.ok y, t')) xs ys := by
  induction xs generalizing ys s with
  | nil =>
      cases h
      exact .nil
  | cons x xs ih =>
      rw [List.mapM_cons] at h
      obtain ⟨y, s₁, hy, h⟩ := run_bind_ok.1 h
      obtain ⟨rest, s₂, hrest, h⟩ := run_bind_ok.1 h
      cases h
      exact .cons ⟨s, s₁, hy⟩ (ih hrest)

/-- Work that succeeds on each item wherever it is done succeeds on the
list. -/
theorem run_mapM_of_forall₂ {f : α → ExceptT Fault (StateM S) β} {xs : List α} {ys : List β}
    (h : List.Forall₂ (fun x y => ∀ s, ∃ s', (f x).run s = (.ok y, s')) xs ys) (s : S) :
    ∃ s', (xs.mapM f).run s = (.ok ys, s') := by
  induction h generalizing s with
  | nil => exact ⟨s, rfl⟩
  | cons hone _ ih =>
      obtain ⟨s₁, hone⟩ := hone s
      obtain ⟨s₂, hrest⟩ := ih s₁
      refine ⟨s₂, ?_⟩
      rw [List.mapM_cons, run_bind_of_ok hone, run_bind_of_ok hrest]
      rfl

end Faults

-- ======================================================== ways to build

namespace Work

@[simp] theorem run_ofExcept (r : Except Fault α) (d : Desk σ) :
    (Work.ofExcept r).run d = (r, d) := rfl

theorem run_ofExcept_ok {r : Except Fault α} {a : α} {d d' : Desk σ} :
    (Work.ofExcept r).run d = (.ok a, d') ↔ r = .ok a ∧ d' = d := by
  rw [run_ofExcept, Prod.mk.injEq]
  exact and_congr_right fun _ => eq_comm

/-- What there is to report about a result does not change it. -/
theorem run_ofReported (r : Except Fault α × Journal) (d : Desk σ) :
    (Work.ofReported r).run d = (r.1, { d with journal := d.journal ++ r.2 }) := rfl

@[simp] theorem run_report (events : Journal) (d : Desk σ) :
    (Work.report events).run d = (.ok (), { d with journal := d.journal ++ events }) := rfl

/-- The outcome of work is a result, and the work is done all the
same. -/
theorem run_outcome (w : Work σ α) (d : Desk σ) :
    w.outcome.run d = (.ok (w.run d).1, (w.run d).2) := rfl

theorem run_inScope (scope : Scope) (w : SiteWork σ α) (d : Desk σ) :
    (Work.inScope scope w).run d = ((w.run ⟨d, scope⟩).1, (w.run ⟨d, scope⟩).2.toDesk) := rfl

theorem run_rephrase (f : Fault → Fault) (w : Work σ α) (d : Desk σ) :
    (Work.rephrase f w).run d = ((w.run d).1.mapError f, (w.run d).2) := by
  simp only [Work.rephrase, ExceptT.run_mk, bind_apply]
  rcases w.run d with ⟨a | a, d'⟩
  · rfl
  · rfl

/-- What ways to fail there are does not matter for a result. -/
theorem run_rephrase_ok {f : Fault → Fault} {w : Work σ α} {d d' : Desk σ} {a : α} :
    (Work.rephrase f w).run d = (.ok a, d') ↔ w.run d = (.ok a, d') := by
  rw [run_rephrase]
  rcases w.run d with ⟨fault | a', d''⟩
  · exact ⟨nofun, nofun⟩
  · exact Iff.rfl

/-- A rephrased fault is one the work failed with. -/
theorem run_rephrase_error {f : Fault → Fault} {w : Work σ α} {d d' : Desk σ} {fault : Fault} :
    (Work.rephrase f w).run d = (.error fault, d')
      ↔ ∃ why, w.run d = (.error why, d') ∧ fault = f why := by
  rw [run_rephrase]
  rcases w.run d with ⟨why | a, d''⟩
  · constructor
    · intro h
      cases h
      exact ⟨why, rfl, rfl⟩
    · rintro ⟨_, h, rfl⟩
      cases h
      rfl
  · exact ⟨nofun, fun ⟨_, h, _⟩ => nomatch h⟩

end Work

namespace SiteWork

@[simp] theorem run_ofExcept (r : Except Fault α) (s : Site σ) :
    (SiteWork.ofExcept r).run s = (r, s) := rfl

theorem run_ofExcept_ok {r : Except Fault α} {a : α} {s s' : Site σ} :
    (SiteWork.ofExcept r).run s = (.ok a, s') ↔ r = .ok a ∧ s' = s := by
  rw [run_ofExcept, Prod.mk.injEq]
  exact and_congr_right fun _ => eq_comm

@[simp] theorem run_report (events : Journal) (s : Site σ) :
    (SiteWork.report events).run s = (.ok (), { s with journal := s.journal ++ events }) := rfl

/-- Work away from any scope leaves the scope as it was. -/
theorem run_ofWork (w : Work σ α) (s : Site σ) :
    (SiteWork.ofWork w).run s
      = ((w.run s.toDesk).1, { s with toDesk := (w.run s.toDesk).2 }) := rfl

/-- Work at a desk leaves the scope of the site alone. -/
theorem run_ofWork_ok {w : Work σ α} {s s' : Site σ} {a : α} :
    (SiteWork.ofWork w).run s = (.ok a, s') ↔
      ∃ d, w.run s.toDesk = (.ok a, d) ∧ s' = { s with toDesk := d } := by
  rw [run_ofWork]
  constructor
  · intro h
    obtain ⟨hanswer, hsite⟩ := Prod.mk.inj h
    exact ⟨_, Prod.ext hanswer rfl, hsite.symm⟩
  · rintro ⟨d, h, rfl⟩
    rw [h]

theorem run_rephrase (f : Fault → Fault) (w : SiteWork σ α) (s : Site σ) :
    (SiteWork.rephrase f w).run s = ((w.run s).1.mapError f, (w.run s).2) := by
  simp only [SiteWork.rephrase, ExceptT.run_mk, bind_apply]
  rcases w.run s with ⟨a | a, s'⟩
  · rfl
  · rfl

theorem run_rephrase_ok {f : Fault → Fault} {w : SiteWork σ α} {s s' : Site σ} {a : α} :
    (SiteWork.rephrase f w).run s = (.ok a, s') ↔ w.run s = (.ok a, s') := by
  rw [run_rephrase]
  rcases w.run s with ⟨fault | a', s''⟩
  · exact ⟨nofun, nofun⟩
  · exact Iff.rfl

end SiteWork

end Depot
