/-
Collecting from several components. Each is made under a scope of its own
in the arena, which the arena has to admit; what it requires there is its
own affair (`Requires`). So a backend collects exactly if the arena admits
all temporary scopes and every component says what it requires, and then
it collects that, component by component (`run_collectFrom_ok`,
`run_collectFrom_of_requires`). Components that are registered in another
order require the same in another order (`exists_collectFrom_of_perm`).
-/
import Depot.Proofs.Backend.Repeatable
import Depot.Proofs.Scope

namespace Depot.Backend

variable {σ : Type} {b : Backend σ} {mark : BackendMark} {arena : Scope}

-- ======================================================== one component

/-- The name of a component's scope in the arena. -/
def tempName (entry : Value × Definition σ) : String := s!"temp-{entry.1.label}"

/-- What a component that is made in the arena requires, with its id as the
source where it names none. -/
def Requires (mark : BackendMark) (arena : Scope) (entry : Value × Definition σ)
    (requests : List (Request σ)) : Prop :=
  ∃ declared, (Work.inScope ((arena.childOf (tempName entry)).mark mark) entry.2.declared).Gives
      declared
    ∧ declared.mapM (fun r => r.withSource entry.1) = .ok requests

/-- Once the arena has the temporary scope the component is made under
it. -/
theorem collectOne_eq (b : Backend σ) {entry : Value × Definition σ}
    (admits : arena.Admits [tempName entry]) :
    b.collectOne mark arena entry = (do
      let why := Fault.orPut fun fault => .component
        s!"Failed to collect requirements from component \"{entry.1.label}\": {fault.reason}"
        entry.1
      let declared ← Work.rephrase why
        (Work.inScope ((arena.childOf (tempName entry)).mark mark) entry.2.declared)
      let requests ← Work.ofExcept (declared.mapM fun r => r.withSource entry.1)
      Work.report [b.event .debug "requirements_collected"
        [("component_id", entry.1), ("count", .int declared.length)]]
      return (requests, arena.grown [tempName entry])) := by
  have hcreate : arena.create (.str s!"temp-{entry.1.label}")
      = .ok (arena.grown [tempName entry]) := Scope.create_ok_iff.2 ⟨admits, rfl⟩
  have hscope : ((arena.grown [tempName entry]).child? (.str s!"temp-{entry.1.label}")).getD
      (arena.grown [tempName entry]) = arena.childOf (tempName entry) :=
    congrArg (fun o => Option.getD o _) (Scope.child?_grown admits)
  have hbind : ∀ (k : Scope → Work σ (List (Request σ) × Scope)) (new : Scope),
      (Work.ofExcept (.ok new) >>= k) = k new := fun _ _ => rfl
  unfold collectOne
  dsimp only
  rw [hcreate, hbind, hscope]

/-- Collecting one definition takes a new name in the arena and gives what
it requires. -/
theorem run_collectOne_ok {entry : Value × Definition σ} {requests : List (Request σ)}
    {arena' : Scope} {d d' : Desk σ}
    (h : (b.collectOne mark arena entry).run d = (.ok (requests, arena'), d')) :
    arena.Admits [tempName entry] ∧ arena' = arena.grown [tempName entry]
      ∧ Requires mark arena entry requests := by
  have hadmits : arena.Admits [tempName entry] := by
    obtain ⟨arena₁, d₁, hcreate, -⟩ := run_bind_ok.1 h
    exact (Scope.create_ok_iff.1 (Work.run_ofExcept_ok.1 hcreate).1).1
  rw [collectOne_eq b hadmits] at h
  obtain ⟨declared, d₁, hdeclared, h⟩ := run_bind_ok.1 h
  obtain ⟨requests', d₂, hrequests, h⟩ := run_bind_ok.1 h
  obtain ⟨_, d₃, -, h⟩ := run_bind_ok.1 h
  cases h
  exact ⟨hadmits, rfl, declared, Work.gives_of_run (Work.run_rephrase_ok.1 hdeclared),
    (Work.run_ofExcept_ok.1 hrequests).1⟩

/-- Collecting one definition succeeds with what it requires, if its name is
free. -/
theorem run_collectOne_of_requires (b : Backend σ) {entry : Value × Definition σ}
    (declares : ∀ scope, (Work.inScope scope entry.2.declared).Steady)
    (admits : arena.Admits [tempName entry]) {requests : List (Request σ)}
    (requires : Requires mark arena entry requests) (d : Desk σ) :
    ∃ d', (b.collectOne mark arena entry).run d
      = (.ok (requests, arena.grown [tempName entry]), d') := by
  obtain ⟨declared, ⟨d₀, hdeclared⟩, hrequests⟩ := requires
  obtain ⟨d₁, hrun⟩ := (declares _).run hdeclared d
  rw [collectOne_eq b admits]
  dsimp only
  rw [run_bind_of_ok (Work.run_rephrase_ok.2 hrun), hrequests]
  exact ⟨_, rfl⟩

-- =================================================== several components

/-- Collecting several takes all their names and gives what each requires,
in order. -/
theorem run_collectFrom_ok {entries : Keyed (Definition σ)} {requests : List (Request σ)}
    {d d' : Desk σ} (h : (b.collectFrom mark arena entries).run d = (.ok requests, d')) :
    arena.Admits (entries.map tempName)
      ∧ ∃ parts, List.Forall₂ (Requires mark arena) entries parts ∧ requests = parts.flatten := by
  induction entries generalizing arena requests d with
  | nil =>
      cases h
      exact ⟨arena.admits_nil, [], .nil, rfl⟩
  | cons entry entries ih =>
      obtain ⟨⟨own, arena'⟩, d₁, hown, h⟩ := run_bind_ok.1 h
      obtain ⟨others, d₂, hothers, h⟩ := run_bind_ok.1 h
      cases h
      obtain ⟨hadmits, rfl, hrequires⟩ := run_collectOne_ok hown
      obtain ⟨hrest, parts, hparts, rfl⟩ := ih hothers
      exact ⟨Scope.admits_cons.2 ⟨hadmits, hrest⟩, own :: parts, .cons hrequires hparts, rfl⟩

/-- What one of several components requires is among what all do. -/
theorem exists_requires_of_mem {entries : Keyed (Definition σ)} {parts : List (List (Request σ))}
    (requires : List.Forall₂ (Requires mark arena) entries parts) {entry : Value × Definition σ}
    (hentry : entry ∈ entries) :
    ∃ own, Requires mark arena entry own ∧ ∀ r ∈ own, r ∈ parts.flatten := by
  induction requires with
  | nil => cases hentry
  | @cons _ own _ parts head tail ih =>
      rcases List.mem_cons.1 hentry with rfl | hentry
      · exact ⟨own, head, fun r hr => List.mem_append_left _ hr⟩
      · obtain ⟨other, hother, hin⟩ := ih hentry
        exact ⟨other, hother, fun r hr => List.mem_append_right _ (hin r hr)⟩

/-- What several components require is what one of them does. -/
theorem exists_requires_of_mem_flatten {entries : Keyed (Definition σ)}
    {parts : List (List (Request σ))}
    (requires : List.Forall₂ (Requires mark arena) entries parts) {r : Request σ}
    (hr : r ∈ parts.flatten) : ∃ e ∈ entries, ∃ own, Requires mark arena e own ∧ r ∈ own := by
  induction requires with
  | nil => cases hr
  | @cons entry own entries parts head tail ih =>
      rcases List.mem_append.1 hr with hr | hr
      · exact ⟨entry, by simp, own, head, hr⟩
      · obtain ⟨e, he, hrest⟩ := ih hr
        exact ⟨e, List.mem_cons_of_mem entry he, hrest⟩

/-- Collecting several definitions succeeds with what each requires, if
their names are free. -/
theorem run_collectFrom_of_requires (b : Backend σ) {entries : Keyed (Definition σ)}
    (declares : ∀ e ∈ entries, ∀ scope, (Work.inScope scope e.2.declared).Steady)
    (admits : arena.Admits (entries.map tempName)) {parts : List (List (Request σ))}
    (requires : List.Forall₂ (Requires mark arena) entries parts) (d : Desk σ) :
    ∃ d', (b.collectFrom mark arena entries).run d = (.ok parts.flatten, d') := by
  induction entries generalizing arena parts d with
  | nil =>
      cases requires
      exact ⟨d, rfl⟩
  | cons entry entries ih =>
      cases requires with
      | @cons _ own _ parts head tail =>
          obtain ⟨hone, hrest⟩ := Scope.admits_cons.1 admits
          obtain ⟨d₁, hown⟩ := b.run_collectOne_of_requires (declares entry (by simp)) hone head d
          obtain ⟨d₂, hothers⟩ := ih (fun e he => declares e (by simp [he])) hrest tail d₁
          exact ⟨d₂, run_bind_ok.2 ⟨_, d₁, hown, run_bind_ok.2 ⟨_, d₂, hothers, rfl⟩⟩⟩

/-- Components in another order require the same in another order. -/
theorem exists_collectFrom_of_perm {entries entries' : Keyed (Definition σ)}
    (reordered : entries.Perm entries')
    (declares : ∀ e ∈ entries, ∀ scope, (Work.inScope scope e.2.declared).Steady)
    {requests : List (Request σ)} {d₀ d₁ : Desk σ}
    (h : (b.collectFrom mark arena entries).run d₀ = (.ok requests, d₁)) (b' : Backend σ) :
    ∃ requests', requests.Perm requests'
      ∧ ∀ d, ∃ d', (b'.collectFrom mark arena entries').run d = (.ok requests', d') := by
  obtain ⟨admits, parts, requires, rfl⟩ := run_collectFrom_ok h
  obtain ⟨parts', requires', hparts⟩ := List.perm_comp_forall₂ reordered.symm requires
  refine ⟨parts'.flatten, hparts.symm.flatten, fun d => ?_⟩
  exact b'.run_collectFrom_of_requires (fun e he => declares e (reordered.symm.subset he))
    (admits.perm (reordered.map _)) requires' d

-- ========================================================== collisions

/-- No two of some keys differ by case alone. -/
def NoCollision (rs : List Requirement) : Prop :=
  ∀ r ∈ rs, ∀ q ∈ rs, lowerCase r.resourceKey = lowerCase q.resourceKey →
    r.resourceKey = q.resourceKey

/-- A new entry at the end is found under its own key; elsewhere nothing
changes. -/
theorem lookup_concat {seen : Table String} {folded key : String} (new : seen.lookup folded = none)
    (wanted : String) : List.lookup wanted (seen ++ [(folded, key)])
      = if wanted = folded then some key else seen.lookup wanted := by
  rw [List.lookup_append]
  by_cases h : wanted = folded
  · rw [h, new, if_pos rfl]
    exact List.lookup_cons_self
  · have hne : (wanted == folded) = false := beq_false_of_ne h
    rw [if_neg h, List.lookup_cons, hne]
    exact Option.or_none

/-- The walk meets no collision exactly if there is none, neither among the
keys ahead nor with one that was seen. -/
theorem firstCollision?_eq_none_iff {seen : Table String} {rs : List Requirement} :
    firstCollision? seen rs = none ↔
      (∀ r ∈ rs, ∀ other, seen.lookup (lowerCase r.resourceKey) = some other →
        other = r.resourceKey) ∧ NoCollision rs := by
  induction rs generalizing seen with
  | nil => simp [firstCollision?, NoCollision]
  | cons r rs ih =>
      have hpairs : NoCollision (r :: rs) ↔ (∀ q ∈ rs,
          lowerCase q.resourceKey = lowerCase r.resourceKey → r.resourceKey = q.resourceKey)
            ∧ NoCollision rs := by
        constructor
        · intro h
          exact ⟨fun q hq hfold => h r (by simp) q (by simp [hq]) hfold.symm,
            fun p hp q hq => h p (by simp [hp]) q (by simp [hq])⟩
        · rintro ⟨hfirst, hrest⟩ p (_ | ⟨_, hp⟩) q (_ | ⟨_, hq⟩) hfold
          · rfl
          · exact hfirst q hq hfold.symm
          · exact (hfirst p hp hfold).symm
          · exact hrest p hp q hq hfold
      rw [hpairs, List.forall_mem_cons]
      unfold firstCollision?
      dsimp only
      cases hseen : seen.lookup (lowerCase r.resourceKey) with
      | none =>
          have hstep : (∀ q ∈ rs, ∀ other, List.lookup (lowerCase q.resourceKey)
                (seen ++ [(lowerCase r.resourceKey, r.resourceKey)]) = some other →
                other = q.resourceKey)
              ↔ (∀ q ∈ rs, ∀ other, seen.lookup (lowerCase q.resourceKey) = some other →
                  other = q.resourceKey)
                ∧ ∀ q ∈ rs, lowerCase q.resourceKey = lowerCase r.resourceKey →
                  r.resourceKey = q.resourceKey := by
            simp only [lookup_concat hseen]
            constructor
            · intro h
              refine ⟨fun q hq other hother => h q hq other ?_, fun q hq hfold => ?_⟩
              · rw [if_neg, hother]
                intro hfold
                rw [hfold, hseen] at hother
                cases hother
              · exact h q hq r.resourceKey (by rw [if_pos hfold])
            · rintro ⟨hold, hnew⟩ q hq other hother
              by_cases hfold : lowerCase q.resourceKey = lowerCase r.resourceKey
              · rw [if_pos hfold] at hother
                injection hother with hother
                exact hother ▸ hnew q hq hfold
              · rw [if_neg hfold] at hother
                exact hold q hq other hother
          dsimp only
          rw [ih, hstep]
          simp [and_assoc]
      | some other =>
          dsimp only
          by_cases hkey : other = r.resourceKey
          · -- what was seen before says of each key ahead what this one says
            have hfirst : (∀ q ∈ rs, ∀ found, seen.lookup (lowerCase q.resourceKey) = some found →
                found = q.resourceKey) → ∀ q ∈ rs,
                  lowerCase q.resourceKey = lowerCase r.resourceKey →
                    r.resourceKey = q.resourceKey := by
              intro h q hq hfold
              rw [← hkey]
              exact h q hq other (by rw [hfold, hseen])
            rw [if_pos hkey, ih]
            constructor
            · rintro ⟨hold, hrest⟩
              refine ⟨⟨?_, hold⟩, hfirst hold, hrest⟩
              intro found hfound
              injection hfound with hfound
              rw [← hfound, hkey]
            · rintro ⟨⟨-, hold⟩, -, hrest⟩
              exact ⟨hold, hrest⟩
          · rw [if_neg hkey]
            simp [hkey]

/-- The search for collisions passes exactly if there are none. -/
theorem checkCollisions_ok_iff {rs : List Requirement} :
    checkCollisions rs = .ok () ↔ NoCollision rs := by
  have hnone : firstCollision? [] rs = none ↔ NoCollision rs := by
    rw [firstCollision?_eq_none_iff]
    simp
  rw [← hnone]
  unfold checkCollisions
  cases firstCollision? [] rs with
  | none => simp
  | some found => simp

/-- Whether keys collide does not depend on their order. -/
theorem NoCollision.perm {rs rs' : List Requirement} (h : NoCollision rs) (p : rs.Perm rs') :
    NoCollision rs' := fun r hr q hq => h r (p.symm.subset hr) q (p.symm.subset hq)

/-- What is collected comes from the components, under an arena of the
backend's own, and no two keys in it collide. -/
theorem run_collect_ok {requests : List (Request σ)} {d d' : Desk σ}
    (collects : (b.collect mark).run d = (.ok requests, d')) :
    ∃ arena d₁, Scope.root (.str s!"{b.id.label}-collect") = .ok arena
      ∧ (b.collectFrom mark arena b.definitions).run d = (.ok requests, d₁)
      ∧ NoCollision (requests.map Request.toRequirement) := by
  obtain ⟨arena, d₁, hroot, harena⟩ := run_bind_ok.1 collects
  obtain ⟨found, d₂, hfound, hfurther⟩ := run_bind_ok.1 harena
  obtain ⟨_, d₃, hchecked, hlast⟩ := run_bind_ok.1 hfurther
  cases hlast
  obtain ⟨hmade, rfl⟩ := Work.run_ofExcept_ok.1 hroot
  obtain ⟨hdifferent, rfl⟩ := Work.run_ofExcept_ok.1 hchecked
  exact ⟨arena, _, hmade, hfound, checkCollisions_ok_iff.1 hdifferent⟩

/-- A backend that collects does so with its components in any order. -/
theorem exists_collect_of_perm {definitions : Keyed (Definition σ)}
    (reordered : b.definitions.Perm definitions)
    (declares : ∀ e ∈ b.definitions, ∀ scope, (Work.inScope scope e.2.declared).Steady)
    {requests : List (Request σ)} {d₀ d₁ : Desk σ}
    (collects : (b.collect mark).run d₀ = (.ok requests, d₁)) :
    ∃ requests', requests.Perm requests' ∧ ∀ d, ∃ d',
      (({ b with definitions := definitions } : Backend σ).collect mark).run d
        = (.ok requests', d') := by
  obtain ⟨arena, d₂, harena, hfound, hdifferent⟩ := run_collect_ok collects
  obtain ⟨requests', hperm, hcollects⟩ := exists_collectFrom_of_perm reordered declares hfound
    { b with definitions := definitions }
  refine ⟨requests', hperm, fun d => ?_⟩
  obtain ⟨d', hrun⟩ := hcollects d
  have hchecked := checkCollisions_ok_iff.2 (hdifferent.perm (hperm.map _))
  refine ⟨d', run_bind_ok.2 ⟨arena, d, Work.run_ofExcept_ok.2 ⟨harena, rfl⟩, ?_⟩⟩
  refine run_bind_ok.2 ⟨requests', d', hrun, ?_⟩
  exact run_bind_ok.2 ⟨(), d', Work.run_ofExcept_ok.2 ⟨hchecked, rfl⟩, rfl⟩

end Depot.Backend
