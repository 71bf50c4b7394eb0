/-
Work that answers the same wherever it is done. Collaborators have a
memory, so work that is done twice may well come out differently; it is
steady if it does not. Steady work may still remember things and write to
the journal, but none of that shows in its answer.

The answer of a sequence of steady work is the sequence of the answers
(`answer_bind`). Two runs that take the same steps from different places,
one in earnest and one for practice, can then be compared answer by
answer, without a word about what either left behind.

Work at a site leaves a scope behind, which later work sees. What such work
comes to from a scope, whatever the desk, is `SiteWork.Leads`.
-/
import Depot.Proofs.Work

namespace Depot.Work

variable {σ α β : Type}

-- ============================================================= answers

/-- The outcome of the work at a desk. -/
def answer (w : Work σ α) (d : Desk σ) : Except Fault α := (w.run d).1

/-- The work can answer with a result. -/
def Gives (w : Work σ α) (a : α) : Prop := ∃ d, w.answer d = .ok a

/-- The work answers the same at every desk. -/
def Steady (w : Work σ α) : Prop := ∀ d d', w.answer d = w.answer d'

theorem gives_of_run {w : Work σ α} {d d' : Desk σ} {a : α} (h : w.run d = (.ok a, d')) :
    w.Gives a := ⟨d, congrArg Prod.fst h⟩

theorem run_of_answer {w : Work σ α} {d : Desk σ} {r : Except Fault α} (h : w.answer d = r) :
    ∃ d', w.run d = (r, d') := ⟨_, Prod.ext h rfl⟩

theorem gives_bind {w : Work σ α} {k : α → Work σ β} {b : β} (h : (w >>= k).Gives b) :
    ∃ a, w.Gives a ∧ (k a).Gives b := by
  obtain ⟨d, h⟩ := h
  obtain ⟨a, d', hw, hk⟩ := run_bind_ok.1 (Prod.ext h rfl)
  exact ⟨a, gives_of_run hw, gives_of_run hk⟩

/-- What ways to fail there are does not matter for a result. -/
theorem gives_of_rephrase {w : Work σ α} {f : Fault → Fault} {a : α}
    (h : (Work.rephrase f w).Gives a) : w.Gives a := by
  obtain ⟨d, h⟩ := h
  obtain ⟨d', hrun⟩ := run_of_answer h
  exact gives_of_run (run_rephrase_ok.1 hrun)

/-- The answer of a sequence is the sequence of the answers, if the second
half is steady wherever the first can lead. -/
theorem answer_bind {w : Work σ α} {k : α → Work σ β} (hk : ∀ a, w.Gives a → (k a).Steady)
    (d : Desk σ) : (w >>= k).answer d = (w.answer d >>= fun a => (k a).answer d) := by
  unfold answer
  rw [run_bind]
  rcases hw : w.run d with ⟨fault | a, d'⟩
  · rfl
  · exact hk a (gives_of_run hw) d' d

-- ============================================================== steady

namespace Steady

theorem pure (a : α) : Steady (Pure.pure a : Work σ α) := fun _ _ => rfl

theorem throw (fault : Fault) : Steady (MonadExcept.throw fault : Work σ α) := fun _ _ => rfl

theorem ofExcept (r : Except Fault α) : Steady (Work.ofExcept r : Work σ α) := fun _ _ => rfl

theorem report (events : Journal) : Steady (Work.report events : Work σ Unit) := fun _ _ => rfl

/-- Steady work that goes on steadily is steady. -/
theorem bind {w : Work σ α} {k : α → Work σ β} (hw : w.Steady)
    (hk : ∀ a, w.Gives a → (k a).Steady) : (w >>= k).Steady := by
  intro d d'
  rw [answer_bind hk, answer_bind hk, hw d d']
  cases hd : w.answer d' with
  | error fault => rfl
  | ok a => exact hk a ⟨d', hd⟩ d d'

/-- Steady work that answers at one desk answers so at every other. -/
theorem run {w : Work σ α} (hw : w.Steady) {d : Desk σ} {r : Except Fault α}
    (h : w.answer d = r) (d' : Desk σ) : ∃ d'', w.run d' = (r, d'') :=
  run_of_answer ((hw d' d).trans h)

/-- Looking at the outcome keeps work steady. -/
theorem outcome {w : Work σ α} (hw : w.Steady) : w.outcome.Steady := by
  intro d d'
  unfold answer
  rw [run_outcome, run_outcome]
  exact congrArg Except.ok (hw d d')

/-- Rephrasing its faults keeps work steady. -/
theorem rephrase {w : Work σ α} (hw : w.Steady) (f : Fault → Fault) :
    (Work.rephrase f w).Steady := by
  intro d d'
  unfold answer
  rw [run_rephrase, run_rephrase]
  exact congrArg (Except.mapError f) (hw d d')

/-- Steady work for each of some items is steady as a whole. -/
theorem mapM {w : α → Work σ β} {xs : List α} (h : ∀ x ∈ xs, (w x).Steady) :
    (xs.mapM w).Steady := by
  induction xs with
  | nil => exact pure []
  | cons x xs ih =>
      rw [List.mapM_cons]
      refine bind (h x (by simp)) fun y _ => ?_
      exact bind (ih fun x' hx' => h x' (by simp [hx'])) fun ys _ => pure _

/-- Steady work for one item after the other is steady as a whole. -/
theorem foldlM {w : β → α → Work σ β} {xs : List α} (h : ∀ b, ∀ x ∈ xs, (w b x).Steady) (b : β) :
    (xs.foldlM w b).Steady := by
  induction xs generalizing b with
  | nil => exact pure b
  | cons x xs ih =>
      rw [List.foldlM_cons]
      exact bind (h b x (by simp)) fun b' _ => ih (fun b x hx => h b x (by simp [hx])) b'

end Steady

-- =============================================================== lists

theorem answer_outcome (w : Work σ α) (d : Desk σ) : w.outcome.answer d = .ok (w.answer d) := rfl

/-- Steady work for each of some items answers each as if it were alone. -/
theorem answer_mapM {w : α → Work σ β} {xs : List α} (h : ∀ x ∈ xs, (w x).Steady) (d : Desk σ) :
    (xs.mapM w).answer d = xs.mapM fun x => (w x).answer d := by
  induction xs with
  | nil => rfl
  | cons x xs ih =>
      have hxs : ∀ x' ∈ xs, (w x').Steady := fun x' hx' => h x' (by simp [hx'])
      rw [List.mapM_cons, List.mapM_cons, answer_bind, ← ih hxs]
      · congr 1
        funext y
        exact answer_bind (fun ys _ => .pure _) d
      · intro y _
        exact .bind (.mapM hxs) fun ys _ => .pure _

/-- Steps that cannot fail, each with a known answer, are a fold. -/
theorem answer_foldlM {w : β → α → Work σ β} {step : β → α → β} {xs : List α} {d : Desk σ}
    (steady : ∀ b, ∀ x ∈ xs, (w b x).Steady)
    (h : ∀ b, ∀ x ∈ xs, (w b x).answer d = .ok (step b x)) (b : β) :
    (xs.foldlM w b).answer d = .ok (xs.foldl step b) := by
  induction xs generalizing b with
  | nil => rfl
  | cons x xs ih =>
      have hxs : ∀ b, ∀ y ∈ xs, (w b y).Steady := fun b y hy => steady b y (by simp [hy])
      rw [List.foldlM_cons, answer_bind fun b' _ => .foldlM hxs b', h b x (by simp),
        List.foldl_cons]
      exact ih hxs (fun b y hy => h b y (by simp [hy])) (step b x)

end Depot.Work

namespace Depot.SiteWork

variable {σ α β : Type} {scope after last : Scope} {a : α}

/-- From a scope the work leads to a result and to a scope, at whatever
desk. -/
def Leads (w : SiteWork σ α) (scope : Scope) (a : α) (after : Scope) : Prop :=
  ∀ s : Site σ, s.scope = scope → ∃ s', w.run s = (.ok a, s') ∧ s'.scope = after

namespace Leads

theorem pure (a : α) (scope : Scope) : Leads (Pure.pure a : SiteWork σ α) scope a scope :=
  fun s h => ⟨s, rfl, h⟩

theorem mark (m : BackendMark) (scope : Scope) :
    Leads (SiteWork.mark m : SiteWork σ Unit) scope () (scope.mark m) := by
  rintro s rfl
  exact ⟨_, rfl, rfl⟩

theorem ofExcept {r : Except Fault α} (h : r = .ok a) (scope : Scope) :
    Leads (SiteWork.ofExcept r : SiteWork σ α) scope a scope :=
  fun s hs => ⟨s, run_ofExcept_ok.2 ⟨h, rfl⟩, hs⟩

/-- Work away from any scope that comes to a result at every desk. -/
theorem ofWork {w : Work σ α} (h : ∀ d, ∃ d', w.run d = (.ok a, d')) (scope : Scope) :
    Leads (SiteWork.ofWork w) scope a scope := by
  intro s hs
  obtain ⟨d, hd⟩ := h s.toDesk
  exact ⟨_, run_ofWork_ok.2 ⟨d, hd, rfl⟩, hs⟩

/-- What leads somewhere, and on from there, leads on. -/
theorem bind {w : SiteWork σ α} {k : α → SiteWork σ β} {b : β} (hw : Leads w scope a after)
    (hk : Leads (k a) after b last) : Leads (w >>= k) scope b last := by
  intro s hs
  obtain ⟨s₁, hfirst, hscope⟩ := hw s hs
  obtain ⟨s₂, hsecond, hlast⟩ := hk s₁ hscope
  exact ⟨s₂, run_bind_ok.2 ⟨a, s₁, hfirst, hsecond⟩, hlast⟩

end Leads

end Depot.SiteWork
