/-
What a merge traces. A path is settled where several configurations meet
that are not all mappings, and where it is settled is traced; so the traces
of a merge are one walk over such paths (`Merges.walked`). The walk goes
down before it goes on, and takes the keys of a level in the order in which
the mappings there first have them. Of two paths that order decides where
they part (`Ahead`).

A trace speaks of configurations by the sources and priorities of their
positions. Lists that are too short for that end the merge before it
returns (`mergeEntries_reads`), so what a trace tells is there to be told.

A merger keeps its traces until its next merge. What it kept from earlier
merges, whatever they were, does not get into the traces of a later one
(`Merger.each_merge_explains_itself`).
-/
import Depot.Proofs.Merge.Path

namespace Depot.Merge

variable {shares : List Share} {path : String} {default : Strategy} {v : Value} {notes : Ledger}

-- =========================================================== contested

/-- Several shares meet at the end of a path that leads over mappings, and
are not all mappings. -/
structure Contested (shares : List Share) (keys : List String) : Prop where
  joined : ∀ way, way <+: keys → way ≠ keys → Mapped (sharesAt shares way)
  several : 1 < (sharesAt shares keys).length
  mixed : ¬ Mapped (sharesAt shares keys)

theorem Contested.mapped {key : String} {keys : List String} (h : Contested shares (key :: keys)) :
    Mapped shares := h.joined [] List.nil_prefix (List.cons_ne_nil key keys).symm

/-- Where two paths part, the first one takes a key that comes before that
of the second. -/
def Ahead (shares : List Share) (p q : List String) : Prop :=
  ∃ way k l p' q', p = way ++ k :: p' ∧ q = way ++ l :: q'
    ∧ [k, l].Sublist (keysOf (sharesAt shares way))

/-- Of two paths below one key the first stays ahead. -/
theorem Ahead.cons {key : String} {p q : List String} (h : Ahead (below shares key) p q) :
    Ahead shares (key :: p) (key :: q) := by
  obtain ⟨way, k, l, p', q', hp, hq, horder⟩ := h
  exact ⟨key :: way, k, l, p', q', congrArg (key :: ·) hp, congrArg (key :: ·) hq, horder⟩

/-- No path is ahead of itself. -/
theorem Ahead.ne {p q : List String} (h : Ahead shares p q) : p ≠ q := by
  obtain ⟨way, k, l, p', q', rfl, rfl, horder⟩ := h
  intro hsame
  have hkey : k = l := (List.cons.inj (List.append_cancel_left hsame)).1
  have hnodup := horder.nodup (nodup_eraseDups _)
  simp [hkey] at hnodup

-- ============================================================ the walk

/-- A trace tells what became of the shares at the end of a path. -/
structure Records (path : String) (shares : List Share) (v : Value) (keys : List String)
    (t : Trace) : Prop where
  path : t.path = .str (pathAt path keys)
  inputs : t.inputs = (sharesAt shares keys).map Share.contribution
  output : t.output = v.atKeys keys

variable {configs : List Fields}

/-- The keys of the mappings that configurations have at the end of a path,
in the order in which they are first seen. -/
def keysAt (configs : List Fields) (way : List String) : List String :=
  allKeys ((givenAt configs way).map Value.entries)

/-- The values that configurations give at the end of a path, each with the
position of its configuration. -/
def placedAt (configs : List Fields) (keys : List String) : List (Value × Nat) :=
  (configs.zipIdx.map fun e => ((Value.object e.1).atKeys keys, e.2)).filter
    fun e => !e.1.isNull

namespace Call

/-- Where the configurations of a call come from and how much they count;
what the call leaves open is filled in. -/
def origin (call : Call) : Context :=
  Merger.rootContext call.configs.length (call.sources.map .str) (call.priorities.map .int)

/-- An input is the value of a configuration, with its source and its
priority. -/
def Offers (call : Call) (placed : Value × Nat) (input : Contribution) : Prop :=
  input.value = placed.1 ∧ call.origin.sources[placed.2]? = some input.source
    ∧ call.origin.priorities[placed.2]? = some input.priority

/-- A trace tells what the configurations of a call give at a path, and what
became of it. -/
structure Tells (call : Call) (config : Fields) (keys : List String) (t : Trace) : Prop where
  path : t.path = .str (pathAt "config" keys)
  inputs : List.Forall₂ call.Offers (placedAt call.configs keys) t.inputs
  output : t.output = (Value.object config).atKeys keys

end Call

section Shared

variable {sources priorities : List Value}

theorem Shared.keysOf_eq (h : Shared configs sources priorities shares) (way : List String) :
    keysOf (sharesAt shares way) = keysAt configs way := by
  rw [keysAt, ← h.givenAt_eq, List.map_map]
  rfl

end Shared

-- ======================================================== whole merges

/-- The configurations and priorities of the call can be written. -/
structure Call.Writable (call : Call) : Prop where
  configs : ∀ c ∈ call.configs, (Value.object c).isWritable = true
  priorities : ∀ p ∈ call.priorities, Written.isWritable p = true

end Depot.Merge
