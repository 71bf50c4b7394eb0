/-
What a watched run records. `Records` relates plain work to its watched
form: run from the same place, the two have the same outcome and leave the
same behind, and the watched one has put some calls on the list. It says
two things about those calls: whatever the outcome, each of them is of an
allowed kind; and if there is a result, the calls are those that belong to
it.

There is one rule for each way of building work, and the rule for a
sequence (`Records.bind`) is what all others serve: the second half is
judged with the calls of the first half put in front. Work that records
nothing is `Silent`; it can stand anywhere (`Silent.records`).
-/
import Depot.Proofs.Watching.Basic
import Depot.Proofs.Work

namespace Depot

variable {σ S S' α α' β β' : Type}

-- ============================================================ relation

/-- The watched work does what the plain work does and records the calls
that are made on the way. `see` adds a list of calls to what the plain
work goes on, and `f` watches its result. -/
def Records (see : S → List Call → S') (f : α → α') (allowed : Call → Prop)
    (made : α → List Call → Prop) (w : ExceptT Fault (StateM S) α)
    (w' : ExceptT Fault (StateM S') α') : Prop :=
  ∀ s calls, ∃ added,
    w'.run (see s calls) = ((w.run s).1.map f, see (w.run s).2 (calls ++ added))
      ∧ (∀ c ∈ added, allowed c)
      ∧ ∀ a, (w.run s).1 = .ok a → made a added

/-- The watched work does what the plain work does and records nothing. -/
abbrev Silent (see : S → List Call → S') (f : α → α') (w : ExceptT Fault (StateM S) α)
    (w' : ExceptT Fault (StateM S') α') : Prop :=
  Records see f (fun _ => False) (fun _ _ => True) w w'

namespace Records

variable {see : S → List Call → S'} {f : α → α'} {g : β → β'} {allowed : Call → Prop}
  {made : α → List Call → Prop} {w : ExceptT Fault (StateM S) α}
  {w' : ExceptT Fault (StateM S') α'}

-- ============================================================== general

/-- More may be allowed, and less be said of the calls. What is said may
use that the result was reached. -/
theorem mono (h : Records see f allowed made w w') {allowed' : Call → Prop}
    {made' : α → List Call → Prop} (hallowed : ∀ c, allowed c → allowed' c)
    (hmade : ∀ s s' a added, w.run s = (.ok a, s') → made a added → made' a added) :
    Records see f allowed' made' w w' := by
  intro s calls
  obtain ⟨added, hrun, hall, hres⟩ := h s calls
  refine ⟨added, hrun, fun c hc => hallowed c (hall c hc), fun a ha => ?_⟩
  exact hmade s (w.run s).2 a added (Prod.ext ha rfl) (hres a ha)

theorem pure {a : α} (h : made a []) :
    Records see f allowed made (Pure.pure a) (Pure.pure (f a)) := by
  intro s calls
  refine ⟨[], ?_, by simp, ?_⟩
  · rw [List.append_nil]
    rfl
  · intro a' ha
    cases ha
    exact h

theorem throw (fault : Fault) :
    Records see f allowed made (MonadExcept.throw fault) (MonadExcept.throw fault) := by
  intro s calls
  refine ⟨[], ?_, by simp, ?_⟩
  · rw [List.append_nil]
    rfl
  · intro a ha
    cases ha

/-- A sequence records what its halves record. -/
theorem bind {k : α → ExceptT Fault (StateM S) β} {k' : α' → ExceptT Fault (StateM S') β'}
    {next : β → List Call → Prop} (h : Records see f allowed made w w')
    (hk : ∀ a first, made a first →
      Records see g allowed (fun b second => next b (first ++ second)) (k a) (k' (f a))) :
    Records see g allowed next (w >>= k) (w' >>= k') := by
  intro s calls
  obtain ⟨first, hrun, hfirst, hres⟩ := h s calls
  rw [run_bind, run_bind, hrun]
  rcases hw : w.run s with ⟨fault | a, s₁⟩
  · rw [hw] at hrun hres
    refine ⟨first, rfl, hfirst, fun b hb => ?_⟩
    cases hb
  · rw [hw] at hrun hres
    obtain ⟨second, hrun', hsecond, hres'⟩ := hk a first (hres a rfl) s₁ (calls ++ first)
    refine ⟨first ++ second, ?_, ?_, hres'⟩
    · rw [← List.append_assoc]
      exact hrun'
    · intro c hc
      rcases List.mem_append.1 hc with hc | hc
      · exact hfirst c hc
      · exact hsecond c hc

/-- A call is put on the list first. -/
theorem noted {call : Call} {v' : ExceptT Fault (StateM S') α'} (hcall : allowed call)
    (hv : ∀ s calls, v'.run (see s calls) = w'.run (see s (calls ++ [call])))
    (h : Records see f allowed (fun a added => made a (call :: added)) w w') :
    Records see f allowed made w v' := by
  intro s calls
  obtain ⟨added, hrun, hall, hres⟩ := h s (calls ++ [call])
  refine ⟨call :: added, ?_, ?_, hres⟩
  · rw [hv, hrun, ← List.append_cons]
  · intro c hc
    rcases List.mem_cons.1 hc with rfl | hc
    · exact hcall
    · exact hall c hc

/-- Other faults record the same calls. -/
theorem mapError (change : Fault → Fault) {v : ExceptT Fault (StateM S) α}
    {v' : ExceptT Fault (StateM S') α'}
    (hv : ∀ s, v.run s = ((w.run s).1.mapError change, (w.run s).2))
    (hv' : ∀ s, v'.run s = ((w'.run s).1.mapError change, (w'.run s).2))
    (h : Records see f allowed made w w') : Records see f allowed made v v' := by
  intro s calls
  obtain ⟨added, hrun, hall, hres⟩ := h s calls
  rw [hv, hv', hrun]
  rcases hw : (w.run s).1 with fault | a
  · refine ⟨added, rfl, hall, fun a ha => ?_⟩
    cases ha
  · refine ⟨added, rfl, hall, fun a' ha => ?_⟩
    cases ha
    exact hres a hw

/-- What was recorded is recorded whatever the outcome. -/
theorem outcome {w : Work σ α} {w' : Work (Watched σ) α'} {made : α → List Call → Prop}
    (h : Records Desk.watched f allowed made w w') :
    Records Desk.watched (Except.map f) allowed (fun _ _ => True) w.outcome w'.outcome := by
  intro d calls
  obtain ⟨added, hrun, hall, -⟩ := h d calls
  refine ⟨added, ?_, hall, fun _ _ => trivial⟩
  rw [Work.run_outcome, Work.run_outcome, hrun]
  rfl

/-- A result that is watched further records the same calls. -/
theorem result (h : Records see f allowed made w w') (watch : α' → β') :
    Records see (fun a => watch (f a)) allowed made w (do return watch (← w')) := by
  intro s calls
  obtain ⟨added, hrun, hall, hres⟩ := h s calls
  refine ⟨added, ?_, hall, hres⟩
  rw [run_bind, hrun]
  rcases w.run s with ⟨fault | a, s'⟩
  · rfl
  · rfl

/-- Work that changes nothing but what the plain work changes is
silent. -/
theorem unseen {v : ExceptT Fault (StateM S') α}
    (hv : ∀ s calls, v.run (see s calls) = ((w.run s).1, see (w.run s).2 calls)) :
    Silent see (fun a => a) w v := by
  intro s calls
  refine ⟨[], ?_, by simp, fun _ _ => trivial⟩
  rw [List.append_nil, hv]
  rcases w.run s with ⟨fault | a, s'⟩
  · rfl
  · rfl

/-- Silent work can stand wherever nothing need be recorded. -/
theorem ofSilent (h : Silent see f w w')
    (hmade : ∀ s s' a, w.run s = (.ok a, s') → made a []) : Records see f allowed made w w' := by
  intro s calls
  obtain ⟨added, hrun, hall, -⟩ := h s calls
  have hnone : added = [] := List.eq_nil_iff_forall_not_mem.2 fun c hc => hall c hc
  subst hnone
  exact ⟨[], hrun, by simp, fun a ha => hmade s _ a (Prod.ext ha rfl)⟩

/-- A sequence with a silent first half records what its second half
records. -/
theorem afterSilent {k : α → ExceptT Fault (StateM S) β} {k' : α' → ExceptT Fault (StateM S') β'}
    {next : β → List Call → Prop} (h : Silent see f w w')
    (hk : ∀ a, (∃ s s', w.run s = (.ok a, s')) → Records see g allowed next (k a) (k' (f a))) :
    Records see g allowed next (w >>= k) (w' >>= k') := by
  have hw : Records see f allowed
      (fun a added => added = [] ∧ ∃ s s', w.run s = (.ok a, s')) w w' :=
    ofSilent h fun s s' a ha => ⟨rfl, s, s', ha⟩
  refine bind hw fun a first ha => ?_
  rw [ha.1]
  exact hk a ha.2

end Records

-- ======================================================== ways to build

namespace Records

variable {f : α → α'} {allowed : Call → Prop} {made : α → List Call → Prop}

theorem note {call : Call} {w : Work σ α} {w' : Work (Watched σ) α'} (hcall : allowed call)
    (h : Records Desk.watched f allowed (fun a added => made a (call :: added)) w w') :
    Records Desk.watched f allowed made w (do Work.note call; w') :=
  noted hcall (fun _ _ => rfl) h

theorem noteAt {call : Call} {w : SiteWork σ α} {w' : SiteWork (Watched σ) α'}
    (hcall : allowed call)
    (h : Records Site.watched f allowed (fun a added => made a (call :: added)) w w') :
    Records Site.watched f allowed made w (do SiteWork.note call; w') :=
  noted hcall (fun _ _ => rfl) h

theorem rephrase (change : Fault → Fault) {w : Work σ α} {w' : Work (Watched σ) α'}
    (h : Records Desk.watched f allowed made w w') :
    Records Desk.watched f allowed made (Work.rephrase change w) (Work.rephrase change w') :=
  mapError change (Work.run_rephrase change w) (Work.run_rephrase change w') h

theorem rephraseAt (change : Fault → Fault) {w : SiteWork σ α} {w' : SiteWork (Watched σ) α'}
    (h : Records Site.watched f allowed made w w') :
    Records Site.watched f allowed made (SiteWork.rephrase change w)
      (SiteWork.rephrase change w') :=
  mapError change (SiteWork.run_rephrase change w) (SiteWork.run_rephrase change w') h

/-- Work at a scope of its own records what it records there. -/
theorem inScope (scope : Scope) {w : SiteWork σ α} {w' : SiteWork (Watched σ) α'}
    (h : Records Site.watched f allowed made w w') :
    Records Desk.watched f allowed made (Work.inScope scope w) (Work.inScope scope w') := by
  intro d calls
  obtain ⟨added, hrun, hall, hres⟩ := h ⟨d, scope⟩ calls
  have hin : (Work.inScope scope w').run (d.watched calls)
      = ((w'.run (Site.watched ⟨d, scope⟩ calls)).1,
        (w'.run (Site.watched ⟨d, scope⟩ calls)).2.toDesk) := rfl
  refine ⟨added, ?_, hall, hres⟩
  rw [hin, hrun]
  rfl

/-- Work at a desk records at a site what it records there. -/
theorem ofWork {w : Work σ α} {w' : Work (Watched σ) α'}
    (h : Records Desk.watched f allowed made w w') :
    Records Site.watched f allowed made (SiteWork.ofWork w) (SiteWork.ofWork w') := by
  intro s calls
  obtain ⟨added, hrun, hall, hres⟩ := h s.toDesk calls
  have hof : (SiteWork.ofWork w').run (s.watched calls)
      = ((w'.run (s.toDesk.watched calls)).1,
        { s.watched calls with toDesk := (w'.run (s.toDesk.watched calls)).2 }) := rfl
  refine ⟨added, ?_, hall, hres⟩
  rw [hof, hrun]
  rfl

/-- A result that takes no work records nothing. -/
theorem ofExcept {r : Except Fault α} {r' : Except Fault α'} (hr : r' = r.map f)
    (h : ∀ a, r = .ok a → made a []) :
    Records Desk.watched f allowed made (Work.ofExcept r : Work σ α) (Work.ofExcept r') := by
  intro d calls
  subst hr
  exact ⟨[], by rw [List.append_nil]; rfl, by simp, h⟩

theorem ofExceptAt {r : Except Fault α} {r' : Except Fault α'} (hr : r' = r.map f)
    (h : ∀ a, r = .ok a → made a []) :
    Records Site.watched f allowed made (SiteWork.ofExcept r : SiteWork σ α)
      (SiteWork.ofExcept r') :=
  ofWork (ofExcept hr h)

/-- The journal is the same. -/
theorem report (events : Journal) :
    Silent Desk.watched (fun a => a) (Work.report events : Work σ Unit)
      (Work.report events) := by
  intro d calls
  exact ⟨[], by rw [List.append_nil]; rfl, by simp, fun _ _ => trivial⟩

/-- Reporting makes no call. -/
theorem reportAt (events : Journal) :
    Silent Site.watched (fun a => a) (SiteWork.report events : SiteWork σ Unit)
      (SiteWork.report events) := by
  intro s calls
  exact ⟨[], by rw [List.append_nil]; rfl, by simp, fun _ _ => trivial⟩

/-- Watched work that calls nothing is silent. -/
theorem watched (w : Work σ α) : Silent Desk.watched (fun a => a) w w.watched :=
  unseen fun _ _ => rfl

theorem watchedAt (w : SiteWork σ α) : Silent Site.watched (fun a => a) w w.watched :=
  unseen fun _ _ => rfl

end Records

-- ============================================================ sequences

/-- Items, the results of doing something for each of them, and the calls
that were made, item after item. -/
inductive Each (made : α → β → List Call → Prop) : List α → List β → List Call → Prop where
  | nil : Each made [] [] []
  | cons {x y first xs ys rest} (head : made x y first) (tail : Each made xs ys rest) :
      Each made (x :: xs) (y :: ys) (first ++ rest)

/-- Each item has its result and the calls that made it. -/
theorem Each.exists_of_mem {made : α → β → List Call → Prop} {xs : List α} {ys : List β}
    {calls : List Call} (h : Each made xs ys calls) {x : α} (hx : x ∈ xs) :
    ∃ y ∈ ys, ∃ own, made x y own := by
  induction h with
  | nil => cases hx
  | @cons x' y first xs ys rest head tail ih =>
      rcases List.mem_cons.1 hx with rfl | hx
      · exact ⟨y, by simp, first, head⟩
      · obtain ⟨y', hy', own, hmade⟩ := ih hx
        exact ⟨y', by simp [hy'], own, hmade⟩

/-- A value that items change one after the other, and the calls that were
made. -/
inductive Along (made : β → α → β → List Call → Prop) :
    β → List α → β → List Call → Prop where
  | nil {b} : Along made b [] b []
  | cons {b x b' first xs b'' rest} (head : made b x b' first)
      (tail : Along made b' xs b'' rest) : Along made b (x :: xs) b'' (first ++ rest)

namespace Records

variable {see : S → List Call → S'} {allowed : Call → Prop}

/-- Work for each of some items records their calls in order. -/
theorem mapM {e : α → α'} {f : β → β'} {made : α → β → List Call → Prop}
    {w : α → ExceptT Fault (StateM S) β} {w' : α' → ExceptT Fault (StateM S') β'} {xs : List α}
    (h : ∀ x ∈ xs, Records see f allowed (made x) (w x) (w' (e x))) :
    Records see (List.map f) allowed (Each made xs) (xs.mapM w) ((xs.map e).mapM w') := by
  induction xs with
  | nil => exact pure .nil
  | cons x xs ih =>
      rw [List.map_cons, List.mapM_cons, List.mapM_cons]
      refine bind (h x (by simp)) fun y first hy => ?_
      refine bind (ih fun x' hx' => h x' (by simp [hx'])) fun ys rest hys => ?_
      refine pure (f := List.map f) ?_
      rw [List.append_nil]
      exact .cons hy hys

/-- Work along some items records their calls in order. -/
theorem foldlM {e : α → α'} {f : β → β'} {made : β → α → β → List Call → Prop}
    {w : β → α → ExceptT Fault (StateM S) β} {w' : β' → α' → ExceptT Fault (StateM S') β'}
    {xs : List α}
    (h : ∀ b, ∀ x ∈ xs, Records see f allowed (made b x) (w b x) (w' (f b) (e x))) (b : β) :
    Records see f allowed (Along made b xs) (xs.foldlM w b) ((xs.map e).foldlM w' (f b)) := by
  induction xs generalizing b with
  | nil => exact pure .nil
  | cons x xs ih =>
      rw [List.map_cons, List.foldlM_cons, List.foldlM_cons]
      refine bind (h b x (by simp)) fun b' first hb' => ?_
      refine mono (ih (fun b x hx => h b x (by simp [hx])) b') (fun _ hc => hc) ?_
      intro s s' b'' rest _ hrest
      exact .cons hb' hrest

end Records

-- =============================================================== silent

namespace Silent

variable {see : S → List Call → S'} {f : α → α'} {g : β → β'}

theorem pure (a : α) : Silent see f (Pure.pure a) (Pure.pure (f a)) := Records.pure trivial

theorem throw (fault : Fault) :
    Silent see f (MonadExcept.throw fault) (MonadExcept.throw fault) := Records.throw fault

theorem ofExcept {r : Except Fault α} {r' : Except Fault α'} (hr : r' = r.map f) :
    Silent Desk.watched f (Work.ofExcept r : Work σ α) (Work.ofExcept r') :=
  Records.ofExcept hr fun _ _ => trivial

theorem given (r : Except Fault α) :
    Silent Desk.watched (fun a => a) (Work.ofExcept r : Work σ α) (Work.ofExcept r) := by
  refine ofExcept ?_
  cases r with
  | error fault => rfl
  | ok a => rfl

theorem givenAt (r : Except Fault α) :
    Silent Site.watched (fun a => a) (SiteWork.ofExcept r : SiteWork σ α) (SiteWork.ofExcept r) :=
  Records.ofWork (given r)

theorem bind {w : ExceptT Fault (StateM S) α} {w' : ExceptT Fault (StateM S') α'}
    {k : α → ExceptT Fault (StateM S) β} {k' : α' → ExceptT Fault (StateM S') β'}
    (h : Silent see f w w') (hk : ∀ a, Silent see g (k a) (k' (f a))) :
    Silent see g (w >>= k) (w' >>= k') :=
  Records.bind h fun a _ _ => hk a

/-- Silent work for each of some items is silent. -/
theorem mapM {e : α → α'} {w : α → ExceptT Fault (StateM S) β}
    {w' : α' → ExceptT Fault (StateM S') β} (h : ∀ x, Silent see (fun b => b) (w x) (w' (e x)))
    (xs : List α) :
    Silent see (fun ys => ys) (xs.mapM w) ((xs.map e).mapM w') := by
  induction xs with
  | nil => exact pure []
  | cons x xs ih =>
      rw [List.map_cons, List.mapM_cons, List.mapM_cons]
      exact bind (h x) fun y => bind ih fun ys => pure (y :: ys)

end Silent

end Depot
