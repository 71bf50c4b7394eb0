/-
Steps of a merge by how they end and what they note. A step never looks at
the ledger, it only adds to it; so a step is known by its result and by the
notes that it adds, whatever was noted before (`Step.Ends`). The notes of a
sequence are the notes of its parts in order (`Gives.bind`), and a step that
is left out because it failed leaves its notes behind (`Ends.dropped`).

Whether a path's settlement is traced is up to the merger and shows
nowhere else, so notes are described with their traces, and
`Merger.record` says what of them a merger keeps.
-/
import Depot.Merge.Configuration

namespace Depot.Merge

-- ============================================================= ledgers

namespace Ledger

/-- Notes followed by further ones. -/
def append (l new : Ledger) : Ledger :=
  ⟨l.conflicts ++ new.conflicts, l.warnings ++ new.warnings, l.traces ++ new.traces⟩

instance : Append Ledger := ⟨append⟩

/-- Several notes in a row. -/
def concat (notes : List Ledger) : Ledger := notes.foldr append {}

theorem append_eq (l new : Ledger) : l ++ new
    = ⟨l.conflicts ++ new.conflicts, l.warnings ++ new.warnings, l.traces ++ new.traces⟩ := rfl

@[simp] theorem append_conflicts (l new : Ledger) :
    (l ++ new).conflicts = l.conflicts ++ new.conflicts := rfl

@[simp] theorem append_warnings (l new : Ledger) :
    (l ++ new).warnings = l.warnings ++ new.warnings := rfl

@[simp] theorem append_traces (l new : Ledger) : (l ++ new).traces = l.traces ++ new.traces := rfl

@[simp] theorem append_nil (l : Ledger) : l ++ ({} : Ledger) = l := by
  show (⟨l.conflicts ++ [], l.warnings ++ [], l.traces ++ []⟩ : Ledger) = l
  rw [List.append_nil, List.append_nil, List.append_nil]

@[simp] theorem nil_append (l : Ledger) : ({} : Ledger) ++ l = l := rfl

theorem append_assoc (l k j : Ledger) : l ++ k ++ j = l ++ (k ++ j) := by
  show (⟨_ ++ _ ++ _, _ ++ _ ++ _, _ ++ _ ++ _⟩ : Ledger) = ⟨_, _, _⟩
  rw [List.append_assoc, List.append_assoc, List.append_assoc]
  rfl

@[simp] theorem concat_cons (l : Ledger) (ls : List Ledger) : concat (l :: ls) = l ++ concat ls :=
  rfl

theorem conflicts_concat (ls : List Ledger) : (concat ls).conflicts = ls.flatMap conflicts := by
  induction ls with
  | nil => rfl
  | cons l ls ih => rw [concat_cons, append_conflicts, ih, List.flatMap_cons]

theorem traces_concat (ls : List Ledger) : (concat ls).traces = ls.flatMap traces := by
  induction ls with
  | nil => rfl
  | cons l ls ih => rw [concat_cons, append_traces, ih, List.flatMap_cons]

theorem warnings_concat (ls : List Ledger) : (concat ls).warnings = ls.flatMap warnings := by
  induction ls with
  | nil => rfl
  | cons l ls ih => rw [concat_cons, append_warnings, ih, List.flatMap_cons]

/-- Nothing was noted that could not be resolved. -/
def Clear (l : Ledger) : Prop := ∀ c ∈ l.conflicts, c.resolvable = true

/-- Many notes are clear if each of them is. -/
theorem clear_concat_iff {ls : List Ledger} : (concat ls).Clear ↔ ∀ l ∈ ls, l.Clear := by
  unfold Clear
  rw [conflicts_concat]
  constructor
  · intro h l hl c hc
    exact h c (List.mem_flatMap.2 ⟨l, hl, hc⟩)
  · intro h c hc
    obtain ⟨l, hl, hcl⟩ := List.mem_flatMap.1 hc
    exact h l hl c hcl

end Ledger

/-- What a merger keeps of some notes. -/
def Merger.record (m : Merger) (notes : Ledger) : Ledger :=
  { notes with traces := if m.tracing then notes.traces else [] }

namespace Merger

variable (m : Merger)

@[simp] theorem record_empty : m.record {} = {} := by
  unfold record
  rw [ite_self]

/-- What is recorded of notes that are put together is recorded of either. -/
theorem record_append (l new : Ledger) : m.record (l ++ new) = m.record l ++ m.record new := by
  unfold record
  cases m.tracing with
  | true => rfl
  | false => rfl

theorem record_concat (ls : List Ledger) :
    m.record (.concat ls) = .concat (ls.map m.record) := by
  induction ls with
  | nil => exact m.record_empty
  | cons l ls ih => rw [Ledger.concat_cons, record_append, ih, List.map_cons, Ledger.concat_cons]

end Merger

-- =============================================================== steps

namespace Step

variable {α β : Type} {step : Step α} {a : α} {notes : Ledger}

/-- The step ends in a result and adds some notes. -/
def Ends (step : Step α) (r : Except Fault α) (notes : Ledger) : Prop :=
  ∀ l : Ledger, step.run.run l = (r, l ++ notes)

/-- The step succeeds with a value and adds some notes. -/
def Gives (step : Step α) (a : α) (notes : Ledger) : Prop := step.Ends (.ok a) notes

/-- A step and its continuation run one after the other on the same ledger. -/
theorem bind_run (step : Step α) (k : α → Step β) (l : Ledger) :
    (step >>= k).run.run l = match step.run.run l with
      | (r, l') => (ExceptT.bindCont k r).run l' := rfl

/-- A first half that needs no ledger and succeeds. -/
theorem ofExcept_bind {r : Except Fault α} (h : r = .ok a) (k : α → Step β) :
    (Step.ofExcept r >>= k) = k a := by
  rw [h]
  rfl

namespace Ends

theorem ofExcept (r : Except Fault α) : (Step.ofExcept r).Ends r {} := by
  intro l
  rw [Ledger.append_nil]
  rfl

/-- What would come after a fault is not done. -/
theorem bindError {k : α → Step β} {fault : Fault} (h : step.Ends (.error fault) notes) :
    (step >>= k).Ends (.error fault) notes := by
  intro l
  rw [bind_run, h l]
  rfl

/-- What a step that fails noted stays when it is left out. -/
theorem dropped (path : Value) {fault : Fault} (hfault : fault.isDroppable = true)
    (h : step.Ends (.error fault) notes) :
    (Step.orDropped path step).Gives none
      (notes ++ { warnings := [droppedProperty path fault] }) := by
  intro l
  unfold Step.orDropped
  rw [ExceptT.run_mk, StateT.run_bind, h l]
  show StateT.run (if fault.isDroppable then _ else _) (l ++ notes) = _
  rw [if_pos hfault, ← Ledger.append_assoc, Ledger.append_eq (l ++ notes)]
  show (Except.ok none, (⟨(l ++ notes).conflicts, (l ++ notes).warnings ++ _,
    (l ++ notes).traces⟩ : Ledger)) = _
  rw [List.append_nil, List.append_nil]

end Ends

namespace Gives

theorem pure (a : α) : (Pure.pure a : Step α).Gives a {} := by
  intro l
  rw [Ledger.append_nil]
  rfl

/-- The notes of a step that succeeds come before those of what it goes on
with. -/
theorem bindEnds {k : α → Step β} {r : Except Fault β} {notes' : Ledger} (h : step.Gives a notes)
    (hk : (k a).Ends r notes') : (step >>= k).Ends r (notes ++ notes') := by
  intro l
  rw [bind_run, h l]
  show (k a).run.run (l ++ notes) = _
  rw [hk, Ledger.append_assoc]

theorem bind {k : α → Step β} {b : β} {notes' : Ledger} (h : step.Gives a notes)
    (hk : (k a).Gives b notes') : (step >>= k).Gives b (notes ++ notes') := h.bindEnds hk

theorem congr {notes' : Ledger} (h : step.Gives a notes) (hnotes : notes = notes') :
    step.Gives a notes' := hnotes ▸ h

/-- A first half that notes nothing. -/
theorem bindSilent {k : α → Step β} {b : β} (h : step.Gives a {})
    (hk : (k a).Gives b notes) : (step >>= k).Gives b notes := h.bind hk

theorem map {f : α → β} (h : step.Gives a notes) :
    (do return f (← step) : Step β).Gives (f a) notes := by
  have hboth := h.bind (k := fun a => Pure.pure (f a)) (pure (f a))
  rwa [Ledger.append_nil] at hboth

theorem ofExcept {r : Except Fault α} (h : r = .ok a) : (Step.ofExcept r).Gives a {} :=
  h ▸ Ends.ofExcept r

theorem noteConflicts (new : List Conflict) :
    (Step.noteConflicts new).Gives () { conflicts := new } := by
  intro l
  show _ = (Except.ok (), (⟨l.conflicts ++ new, l.warnings ++ [], l.traces ++ []⟩ : Ledger))
  rw [List.append_nil, List.append_nil]
  rfl

theorem noteWarnings (new : List String) :
    (Step.noteWarnings new).Gives () { warnings := new } := by
  intro l
  show _ = (Except.ok (), (⟨l.conflicts ++ [], l.warnings ++ new, l.traces ++ []⟩ : Ledger))
  rw [List.append_nil, List.append_nil]
  rfl

theorem noteTrace (new : Trace) : (Step.noteTrace new).Gives () { traces := [new] } := by
  intro l
  show _ = (Except.ok (), (⟨l.conflicts ++ [], l.warnings ++ [], l.traces ++ [new]⟩ : Ledger))
  rw [List.append_nil, List.append_nil]
  rfl

/-- A step that succeeds is not left out. -/
theorem orDropped (path : Value) (h : step.Gives a notes) :
    (Step.orDropped path step).Gives (some a) notes := by
  intro l
  unfold Step.orDropped
  rw [ExceptT.run_mk, StateT.run_bind, h l]
  rfl

end Gives

end Step

end Depot.Merge
