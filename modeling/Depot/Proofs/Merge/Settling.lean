/-
One path of a merge, settled by one strategy. Which strategy that is depends
on the last piece of the path and on the values: the one asked for, if it
fits, else priority (`wayFor`). `Settles` is what then holds of the value
and of the notes; it is the only thing later proofs know about strategies
at a path.

A strategy fails only where something there cannot be written. The path is
then dropped with a warning, and nothing stands there (`Drops`).
-/
import Depot.Proofs.Merge.Conflict
import Depot.Proofs.Merge.Priority
import Depot.Proofs.Merge.Step
import Depot.Proofs.Work

namespace Depot.Merge

variable {shares : List Share} {path : String} {default : Strategy}

-- ============================================================== the way

/-- The strategy that is asked to settle a path. -/
def askedFor (default : Strategy) (path : String) : Strategy :=
  (suggested? (Text.lastPiece '.' path.toList)).getD default

/-- The strategy that settles values at a path: the one that is asked for,
if it fits, else priority. -/
def wayFor (default : Strategy) (path : String) (values : List Value) : Strategy :=
  match askedFor default path, values.all fun v => v.items?.isSome, values.all Value.isNumber with
  | .union, true, _ => .union
  | .intersection, true, _ => .intersection
  | .maximum, _, true => .maximum
  | .minimum, _, true => .minimum
  | _, _, _ => .priority

/-- What a strategy decides between some shares. -/
def Strategy.Decides : Strategy → List Share → Value → Prop
  | .union, shares, v =>
      v = .list (Value.firstOccurrences (shares.flatMap fun s => s.value.listed))
  | .intersection, shares, v => v = .list (common shares)
  | .maximum, shares, v =>
      ∃ s ∈ shares, v = s.value ∧ ∀ t ∈ shares, t.value.size ≤ s.value.size
  | .minimum, shares, v =>
      ∃ s ∈ shares, v = s.value ∧ ∀ t ∈ shares, s.value.size ≤ t.value.size
  | .priority, shares, v => Leads shares v
  | .custom, _, _ => False

/-- The way at a path suits the shares: lists where items are compared,
numbers where sizes are. -/
def Strategy.Suits : Strategy → List Share → Prop
  | .union, shares | .intersection, shares => Listed shares
  | .maximum, shares | .minimum, shares => Numeric shares
  | .priority, _ => True
  | .custom, _ => False

/-- The strategy that settles a path suits the values there. -/
theorem suits_wayFor (default : Strategy) (path : String) (shares : List Share) :
    (wayFor default path (shares.map Share.value)).Suits shares := by
  have hlists : (shares.map Share.value).all (fun v => v.items?.isSome) = true → Listed shares := by
    intro h s hs
    exact List.all_eq_true.1 h _ (List.mem_map_of_mem hs)
  have hnumbers : (shares.map Share.value).all Value.isNumber = true → Numeric shares := by
    intro h s hs
    exact List.all_eq_true.1 h _ (List.mem_map_of_mem hs)
  unfold wayFor
  split
  · next _ hall => exact hlists hall
  · next _ hall => exact hlists hall
  · next hall => exact hnumbers hall
  · next hall => exact hnumbers hall
  · trivial

/-- A strategy that suits the shares succeeds on them, unless it has to write
what cannot be written. -/
theorem handler_shares (path : String) {way : Strategy} (hsuits : way.Suits shares)
    (hne : shares ≠ []) :
    Answers (Writable shares) (way.handler (shares.map Share.value) (context path shares))
      fun outcome => outcome.strategy = way ∧ Keeping outcome.warnings
        ∧ way.Decides shares outcome.value := by
  cases way with
  | union =>
      have hlisted : ∀ v ∈ shares.map Share.value, v.items?.isSome = true :=
        List.forall_mem_map.2 hsuits
      show Answers _ (union _ _) _
      rw [union_listed hlisted]
      refine .written Writable.list ⟨rfl, .nil, ?_⟩
      show Value.list _ = .list _
      rw [List.flatMap_map]
  | intersection =>
      exact (intersection_shares path hsuits).imp
        fun outcome ⟨hvalue, hstrategy, hkeeps⟩ => ⟨hstrategy, hkeeps, hvalue⟩
  | maximum => exact extreme_shares path (.inl rfl) .maximum hsuits hne
  | minimum =>
      refine (extreme_shares path (.inr rfl) .minimum hsuits hne).imp
        fun outcome ⟨hstrategy, hkeeps, s, hs, hvalue, hall⟩ => ⟨hstrategy, hkeeps, s, hs, hvalue, ?_⟩
      exact fun t ht => neg_le_neg_iff.1 (hall t ht)
  | priority => exact priority_shares path hne
  | custom => exact hsuits.elim

/-- What is decided between shares that are given is not null. -/
theorem Strategy.Decides.ne_null {way : Strategy} {v : Value} (h : way.Decides shares v)
    (hgiven : Given shares) : v ≠ .null := by
  cases way with
  | union | intersection =>
      rw [show v = .list _ from h]
      exact Value.noConfusion
  | maximum | minimum =>
      obtain ⟨s, hs, rfl, -⟩ := h
      exact hgiven s hs
  | priority =>
      obtain ⟨before, s, after, rfl, rfl, -⟩ := h
      exact hgiven s (by simp)
  | custom => exact h.elim

-- ============================================================== settled

/-- What settling the shares at a path comes to. -/
structure Settles (default : Strategy) (path : String) (shares : List Share) (v : Value)
    (notes : Ledger) : Prop where
  stands : v ≠ .null
  decides : (wayFor default path (shares.map Share.value)).Decides shares v
  clear : notes.Clear ↔ SameKind shares
    ∧ (wayFor default path (shares.map Share.value) = .priority → Level shares → Agree shares)
  quiet : notes.conflicts = [] ↔ SameKind shares
    ∧ (wayFor default path (shares.map Share.value) = .priority → Agree shares)
  concerns : ∀ c ∈ notes.conflicts, c.Concerns path shares
  traced : ∃ warnings, notes.traces = [⟨.str path, wayFor default path (shares.map Share.value),
    shares.map Share.contribution, v, warnings⟩]
  keeps : Keeping notes.warnings

/-- Nothing came of the shares at a path, because something there cannot be
written. -/
structure Drops (shares : List Share) (v : Value) (notes : Ledger) : Prop where
  unwritable : ¬ Writable shares
  null : v = .null
  silent : notes.traces = []

/-- The merger has no custom strategies, and this default. -/
structure Merger.Uses (m : Merger) (default : Strategy) : Prop where
  customs : m.customs = {}
  default : m.default = default

variable {m : Merger}

/-- Without custom strategies the path and the default say which one is
asked. -/
theorem Merger.Uses.strategyFor (h : m.Uses default) (path : String) :
    m.strategyFor path = askedFor default path := by
  unfold Merger.strategyFor
  rw [h.customs, h.default]
  rfl

/-- What is said of a strategy that does not fit. -/
def misfit (asked : Strategy) (path : String) : String :=
  let what := s!"{asked.name} strategy does not apply to values at {path}"
  s!"{what}; using priority"

/-- Priority steps in for a strategy that does not fit, with a warning. -/
def fallback (default : Strategy) (path : String) (values : List Value) (ctx : Context) :
    Step Outcome := do
  if askedFor default path ≠ .priority ∧ askedFor default path ≠ .custom then
    Step.noteWarnings [misfit (askedFor default path) path]
  Step.noteConflicts (← Step.ofExcept (valueConflicts values ctx))
  Step.ofExcept (priority values ctx)

/-- The strategy that settles decides alone, except that priority may stand
in. -/
theorem applyStrategy_eq (huses : m.Uses default) (values : List Value) :
    m.applyStrategy values (context path shares)
      = if wayFor default path values = .priority then
          fallback default path values (context path shares)
        else Step.ofExcept ((wayFor default path values).handler values (context path shares)) := by
  have hasked : m.strategyFor (context path shares).path.label = askedFor default path :=
    huses.strategyFor path
  unfold Merger.applyStrategy fallback wayFor
  rw [hasked]
  cases askedFor default path with
  | union => cases values.all fun v => v.items?.isSome with
    | _ => rfl
  | intersection => cases values.all fun v => v.items?.isSome with
    | _ => rfl
  | maximum => cases values.all Value.isNumber with
    | _ => rfl
  | minimum => cases values.all Value.isNumber with
    | _ => rfl
  | priority => rfl
  | custom => rfl

/-- The warning about a misfit reports no drop. -/
theorem misfit_keeps (asked : Strategy) (path : String) : ¬ ReportsDrop (misfit asked path) := by
  unfold misfit
  cases asked with
  | union => exact not_reportsDrop (c := 'u') (by simp [toString, Strategy.name]) (by decide)
  | intersection => exact not_reportsDrop (c := 'i') (by simp [toString, Strategy.name]) (by decide)
  | maximum | minimum =>
      exact not_reportsDrop (c := 'm') (by simp [toString, Strategy.name]) (by decide)
  | priority => exact not_reportsDrop (c := 'p') (by simp [toString, Strategy.name]) (by decide)
  | custom => exact not_reportsDrop (c := 'c') (by simp [toString, Strategy.name]) (by decide)

/-- What the outcome and the notes of a strategy are at a path. -/
structure Applied (default : Strategy) (path : String) (shares : List Share) (outcome : Outcome)
    (notes : Ledger) : Prop where
  strategy : outcome.strategy = wayFor default path (shares.map Share.value)
  decides : (wayFor default path (shares.map Share.value)).Decides shares outcome.value
  clear : notes.Clear ↔ (wayFor default path (shares.map Share.value) = .priority →
    Level shares → Agree shares)
  quiet : notes.conflicts = [] ↔ (wayFor default path (shares.map Share.value) = .priority →
    Agree shares)
  concerns : ∀ c ∈ notes.conflicts, c.Concerns path shares
  keeps : Keeping (notes.warnings ++ outcome.warnings)

/-- Priority looks for values that differ, and then decides. -/
theorem decide_ends (path : String) (hway : wayFor default path (shares.map Share.value) = .priority)
    (hgiven : Given shares) (hne : shares ≠ []) :
    ∃ r notes, (do
        Step.noteConflicts (← Step.ofExcept
          (valueConflicts (shares.map Share.value) (context path shares)))
        Step.ofExcept (priority (shares.map Share.value) (context path shares)) :
          Step Outcome).Ends r notes
      ∧ notes.traces = [] ∧ notes.warnings = []
      ∧ Answers (Writable shares) r fun outcome => Applied default path shares outcome notes := by
  obtain ⟨conflicts, hconflicts, hclear, hquiet, hconcerns⟩ | ⟨hfails, hnot⟩ :=
    valueConflicts_shares path hgiven hne
  · rw [Step.ofExcept_bind hconflicts]
    refine ⟨_, _, (Step.Gives.noteConflicts conflicts).bindEnds (.ofExcept _), rfl, rfl, ?_⟩
    refine (priority_shares path hne).imp fun outcome ⟨hstrategy, hkeeps, hdecides⟩ => ?_
    exact ⟨hway ▸ hstrategy, hway ▸ hdecides, by simpa [Ledger.Clear, hway] using hclear,
      by simpa [hway] using hquiet, by simpa using hconcerns, hkeeps⟩
  · rw [hfails]
    exact ⟨_, {}, (Step.Ends.ofExcept _).bindError, rfl, rfl, .inr ⟨rfl, hnot⟩⟩

/-- Where the strategy that is asked for fits it decides alone; where it
does not, priority decides, and values that differ are noted. -/
theorem applyStrategy_ends (default : Strategy) (path : String) (hgiven : Given shares)
    (hne : shares ≠ []) :
    ∃ r notes, (∀ m : Merger, m.Uses default →
        (m.applyStrategy (shares.map Share.value) (context path shares)).Ends r notes)
      ∧ notes.traces = []
      ∧ Answers (Writable shares) r fun outcome => Applied default path shares outcome notes := by
  by_cases hway : wayFor default path (shares.map Share.value) = .priority
  · obtain ⟨r, notes, hends, htraces, hwarnings, hanswers⟩ := decide_ends path hway hgiven hne
    have happly : ∀ m : Merger, m.Uses default →
        m.applyStrategy (shares.map Share.value) (context path shares)
          = fallback default path (shares.map Share.value) (context path shares) := by
      intro m huses
      rw [applyStrategy_eq huses, if_pos hway]
    by_cases hother : askedFor default path ≠ .priority ∧ askedFor default path ≠ .custom
    · refine ⟨r, { warnings := [misfit (askedFor default path) path] } ++ notes, fun m huses => ?_, ?_, ?_⟩
      · rw [happly m huses, fallback, if_pos hother]
        exact (Step.Gives.noteWarnings _).bindEnds (k := fun _ => _) hends
      · exact htraces
      · refine hanswers.imp fun outcome happlied => { happlied with
          clear := by simpa [Ledger.Clear] using happlied.clear
          quiet := by simpa using happlied.quiet
          concerns := by simpa using happlied.concerns
          keeps := ?_ }
        exact Keeping.cons (misfit_keeps _ path) happlied.keeps
    · refine ⟨r, notes, fun m huses => ?_, htraces, hanswers⟩
      rw [happly m huses, fallback, if_neg hother]
      exact hends
  · let way := wayFor default path (shares.map Share.value)
    refine ⟨way.handler (shares.map Share.value) (context path shares), {}, fun m huses => ?_, rfl,
      ?_⟩
    · rw [applyStrategy_eq huses, if_neg hway]
      exact .ofExcept _
    · refine (handler_shares path (suits_wayFor default path shares) hne).imp
        fun outcome ⟨hstrategy, hkeeps, hdecides⟩ => ?_
      exact ⟨hstrategy, hdecides, by simp [Ledger.Clear, hway], by simp [hway], by simp, hkeeps⟩

/-- Notes without traces are recorded as they are. -/
theorem record_of_silent {notes : Ledger} (h : notes.traces = []) : m.record notes = notes := by
  unfold Merger.record
  rw [h, ite_self, ← h]

/-- Settling gives the outcome, with its warnings and one trace. -/
theorem settle_gives (outcome : Outcome) :
    (m.settle (shares.map Share.value) (context path shares) outcome).Gives outcome.value
      (m.record { warnings := outcome.warnings, traces := [⟨.str path, outcome.strategy,
        shares.map Share.contribution, outcome.value, outcome.warnings⟩] }) := by
  have hwarned := Step.Gives.noteWarnings outcome.warnings
  have hdone := Step.Gives.pure outcome.value
  unfold Merger.settle Merger.record
  cases m.tracing with
  | false =>
      simp only [Bool.false_eq_true, if_false]
      exact (hwarned.bind (k := fun _ => pure outcome.value) hdone).congr
        (Ledger.append_nil _)
  | true =>
      have htraced := (Step.Gives.noteTrace ⟨.str path, outcome.strategy,
        shares.map Share.contribution, outcome.value, outcome.warnings⟩).bind
          (k := fun _ => pure outcome.value) hdone
      have hinputs := Step.Gives.bindSilent (.ofExcept (contributions_all path shares))
        (k := fun inputs => Step.noteTrace ⟨.str path, outcome.strategy, inputs, outcome.value,
          outcome.warnings⟩ >>= fun _ => pure outcome.value) htraced
      simp only [if_true]
      exact (hwarned.bind (k := fun _ => _) hinputs).congr (by simp [Ledger.append_eq])

/-- What is found under a key: a value, or nothing where it is null. -/
def standing (v : Value) : Option Value := if v.isNull then none else some v

theorem standing_of_ne_null {v : Value} (h : v ≠ .null) : standing v = some v := by
  cases v with
  | null => exact absurd rfl h
  | _ => rfl

@[simp] theorem getD_standing (v : Value) : (standing v).getD .null = v := by
  cases v with
  | _ => rfl

/-- A path is settled, or dropped if something there cannot be written. -/
theorem settleByStrategy_gives (default : Strategy) (path : String) (hgiven : Given shares)
    (hne : shares ≠ []) :
    ∃ v notes, (Settles default path shares v notes ∨ Drops shares v notes)
      ∧ ∀ m : Merger, m.Uses default →
        (Step.orDropped (.str path)
          (m.settleByStrategy (shares.map Share.value) (context path shares))).Gives (standing v)
            (m.record notes) := by
  obtain ⟨kinds, hkinds, hsame, hnone, hbetween⟩ := typeConflicts_shares path hgiven
  obtain ⟨r, notes, hends, hsilent, ⟨outcome, rfl, happlied⟩ | ⟨rfl, hnot⟩⟩ :=
    applyStrategy_ends default path hgiven hne
  · let settled : Ledger := { warnings := outcome.warnings, traces := [⟨.str path,
      outcome.strategy, shares.map Share.contribution, outcome.value, outcome.warnings⟩] }
    have hstands : outcome.value ≠ .null := happlied.decides.ne_null hgiven
    refine ⟨outcome.value, { conflicts := kinds } ++ (notes ++ settled), .inl ?_,
      fun m huses => ?_⟩
    · refine ⟨hstands, happlied.decides, ?_, ?_, ?_, ?_, happlied.keeps⟩
      · rw [← hsame, ← happlied.clear]
        simp [Ledger.Clear, settled, or_imp, forall_and]
      · rw [← hnone, ← happlied.quiet]
        simp [settled]
      · intro c hc
        rcases List.mem_append.1 hc with hkind | hvalue
        · exact hbetween c hkind
        · exact happlied.concerns c (by simpa [settled] using hvalue)
      · exact ⟨outcome.warnings, by simp [hsilent, settled, happlied.strategy]⟩
    · have hrecord : m.record (({ conflicts := kinds } : Ledger) ++ (notes ++ settled))
          = { conflicts := kinds } ++ (notes ++ m.record settled) := by
        rw [Merger.record_append, Merger.record_append, record_of_silent hsilent]
        simp [Merger.record]
      rw [hrecord, standing_of_ne_null hstands]
      refine .orDropped _ (.bindSilent (.ofExcept hkinds) ?_)
      have happly : (m.applyStrategy (shares.map Share.value) (context path shares)).Gives outcome
          notes := hends m huses
      exact (Step.Gives.noteConflicts kinds).bind (happly.bind (settle_gives outcome))
  · refine ⟨.null, ({ conflicts := kinds } : Ledger) ++ (notes
      ++ { warnings := [droppedProperty (.str path) Written.tooLongToWrite] }),
      .inr ⟨hnot, rfl, ?_⟩, fun m huses => ?_⟩
    · simp [hsilent]
    · rw [record_of_silent (by simp [hsilent]), ← Ledger.append_assoc]
      refine Step.Ends.dropped (.str path) rfl ?_
      show (Step.ofExcept _ >>= _ : Step Value).Ends _ _
      rw [Step.ofExcept_bind hkinds]
      exact (Step.Gives.noteConflicts kinds).bindEnds (hends m huses).bindError

end Depot.Merge
