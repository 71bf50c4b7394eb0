/-
Scopes that grow. A scope to which children of some names are added one
after the other admits them all or refuses one of them, and neither depends
on the order (`Admits.perm`): names must be given, new to the scope and
different from each other. The scopes that result from two orders are alike
(`grown_alike`): they differ in the order of their children alone.

A child is fixed by its own name and the path of its parent; what its
siblings are, or how many, plays no part in it.
-/
import Depot.Proofs.Value.Name
import Depot.Proofs.Work
import Depot.Scope
import Mathlib.Data.List.Nodup

namespace Depot.Scope

variable {s s' new : Scope} {name : String} {names names' : List String}

-- ============================================================ children

/-- A new child of a name. -/
def childOf (s : Scope) (name : String) : Scope :=
  .node (.str name) (.str (s.pathBelow (.str name))) [] []

/-- The scope with new children of some names. -/
def grown (s : Scope) (names : List String) : Scope :=
  .node s.name s.path (s.children ++ names.map s.childOf) s.context

@[simp] theorem grown_nil (s : Scope) : s.grown [] = s := by
  cases s with
  | node name path children context =>
      show node name path (children ++ []) context = _
      rw [List.append_nil]

theorem grown_grown (s : Scope) (names names' : List String) :
    (s.grown names).grown names' = s.grown (names ++ names') := by
  show node _ _ ((s.children ++ names.map s.childOf) ++ names'.map s.childOf) _ = _
  rw [List.append_assoc, ← List.map_append]
  rfl

/-- The scope can have new children of these names. -/
structure Admits (s : Scope) (names : List String) : Prop where
  distinct : names.Nodup
  given : ∀ name ∈ names, name ≠ ""
  fresh : ∀ name ∈ names, ∀ c ∈ s.children, c.name ≠ .str name

/-- A scope has no child of a name if none of its children has it. -/
theorem child?_eq_none_iff :
    s.child? (.str name) = none ↔ ∀ c ∈ s.children, c.name ≠ .str name := by
  unfold child?
  rw [List.find?_eq_none]
  refine forall₂_congr fun c _ => ?_
  rw [not_iff_not, Value.same_str_iff]

/-- A child that was just made is found. -/
theorem child?_grown (h : s.Admits [name]) :
    (s.grown [name]).child? (.str name) = some (s.childOf name) := by
  have hnone := child?_eq_none_iff.2 (h.fresh name (List.mem_singleton_self name))
  have hsame : (s.childOf name).name.same (.str name) = true := (Value.same_str_iff _ _).2 rfl
  unfold child? at hnone ⊢
  show (s.children ++ [s.childOf name]).find? _ = _
  rw [List.find?_append, hnone, List.find?_cons, hsame]
  rfl

/-- A child is made under a new name that counts, and under no other. -/
theorem create_eq (s : Scope) (name : String) : s.create (.str name)
    = if (s.child? (.str name)).isSome then
        .error (.badValue
          s!"Scope \"{s.path.label}\" already has a child named \"{(Value.str name).label}\"")
      else if !(Value.str name).isTruthy then .error nameless
      else .ok (s.grown [name]) := by
  unfold create
  simp only [Value.asName, Value.canName, if_true, bind, Except.bind]
  split
  · rfl
  · split
    · rfl
    · rfl

/-- A child is made exactly if the scope can have it. -/
theorem create_ok_iff :
    s.create (.str name) = .ok new ↔ s.Admits [name] ∧ new = s.grown [name] := by
  have htruthy : (!(Value.str name).isTruthy) = true ↔ name = "" := by
    show (!(decide (name ≠ ""))) = true ↔ _
    simp
  rw [create_eq]
  cases hchild : s.child? (.str name) with
  | some c =>
      have hnot : ¬ s.Admits [name] := by
        intro h
        rw [child?_eq_none_iff.2 (h.fresh name (List.mem_singleton_self name))] at hchild
        cases hchild
      simp [hnot]
  | none =>
      by_cases hempty : name = ""
      · have hnot : ¬ s.Admits [name] := fun h =>
          h.given name (List.mem_singleton_self name) hempty
        rw [if_neg (by simp), if_pos (htruthy.2 hempty)]
        simp [hnot]
      · have hadmits : s.Admits [name] := by
          refine ⟨List.nodup_singleton name, ?_, ?_⟩
          · intro n hn
            rwa [List.mem_singleton.1 hn]
          · intro n hn
            rw [List.mem_singleton.1 hn]
            exact child?_eq_none_iff.1 hchild
        rw [if_neg (by simp), if_neg (mt htruthy.1 hempty)]
        simp [hadmits, eq_comm]

-- =============================================================== orders

theorem admits_nil (s : Scope) : s.Admits [] :=
  ⟨List.nodup_nil, by simp, by simp⟩

/-- Names can be taken if the first can, and the others after it. -/
theorem admits_cons :
    s.Admits (name :: names) ↔ s.Admits [name] ∧ (s.grown [name]).Admits names := by
  have hchildren : ∀ c, c ∈ (s.grown [name]).children ↔ c ∈ s.children ∨ c = s.childOf name := by
    intro c
    show c ∈ s.children ++ [s.childOf name] ↔ _
    rw [List.mem_append, List.mem_singleton]
  constructor
  · rintro ⟨distinct, given, fresh⟩
    obtain ⟨hnew, hrest⟩ := List.nodup_cons.1 distinct
    refine ⟨⟨List.nodup_singleton name, ?_, ?_⟩, hrest, ?_, ?_⟩
    · intro n hn
      exact given n (List.mem_cons.2 (.inl (List.mem_singleton.1 hn)))
    · intro n hn
      exact fresh n (List.mem_cons.2 (.inl (List.mem_singleton.1 hn)))
    · exact fun n hn => given n (List.mem_cons_of_mem name hn)
    · intro n hn c hc
      rcases (hchildren c).1 hc with hc | rfl
      · exact fresh n (List.mem_cons_of_mem name hn) c hc
      · rintro heq
        injection heq with heq
        exact hnew (heq ▸ hn)
  · rintro ⟨hone, distinct, given, fresh⟩
    have hnew : name ∉ names := by
      intro hin
      exact fresh name hin (s.childOf name) ((hchildren _).2 (.inr rfl)) rfl
    refine ⟨List.nodup_cons.2 ⟨hnew, distinct⟩, ?_, ?_⟩
    · intro n hn
      rcases List.mem_cons.1 hn with rfl | hn
      · exact hone.given n (List.mem_singleton_self n)
      · exact given n hn
    · intro n hn c hc
      rcases List.mem_cons.1 hn with rfl | hn
      · exact hone.fresh n (List.mem_singleton_self n) c hc
      · exact fresh n hn c ((hchildren c).2 (.inl hc))

/-- Names are admitted in any order. -/
theorem Admits.perm (h : s.Admits names) (p : names.Perm names') : s.Admits names' :=
  ⟨p.nodup_iff.1 h.distinct, fun n hn => h.given n (p.symm.subset hn),
    fun n hn => h.fresh n (p.symm.subset hn)⟩

/-- Scopes that differ in the order of their children at most. -/
structure Alike (s s' : Scope) : Prop where
  name : s.name = s'.name
  path : s.path = s'.path
  context : s.context = s'.context
  children : s.children.Perm s'.children

/-- The order in which children are made shows in their order alone. -/
theorem grown_alike (s : Scope) (p : names.Perm names') : (s.grown names).Alike (s.grown names') :=
  ⟨rfl, rfl, rfl, (p.map _).append_left _⟩

end Depot.Scope

namespace Depot

variable {σ : Type}

/-- A child is made exactly if the scope admits it. -/
theorem SiteWork.run_createChild_ok {name path : String} {s s' : Site σ} :
    (SiteWork.createChild (.str name)).run s = (.ok path, s') ↔
      s.scope.Admits [name] ∧ path = s.scope.pathBelow (.str name)
        ∧ s' = { s with scope := s.scope.grown [name] } := by
  constructor
  · intro h
    obtain ⟨site, s₁, hget, h⟩ := run_bind_ok.1 h
    cases hget
    obtain ⟨new, s₂, hnew, h⟩ := run_bind_ok.1 h
    obtain ⟨hcreate, rfl⟩ := SiteWork.run_ofExcept_ok.1 hnew
    obtain ⟨_, s₃, hset, h⟩ := run_bind_ok.1 h
    cases hset
    cases h
    obtain ⟨admits, rfl⟩ := Scope.create_ok_iff.1 hcreate
    exact ⟨admits, rfl, rfl⟩
  · rintro ⟨admits, rfl, rfl⟩
    have hcreate := Scope.create_ok_iff.2 ⟨admits, rfl⟩
    refine run_bind_ok.2 ⟨s, s, rfl, run_bind_ok.2 ⟨s.scope.grown [name], s, ?_, rfl⟩⟩
    exact SiteWork.run_ofExcept_ok.2 ⟨hcreate, rfl⟩

end Depot
