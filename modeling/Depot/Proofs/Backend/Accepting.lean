/-
Accepting what a component hands over. A requirement that was accepted is
used far from where it was: its source is put in, it is shown beside itself,
its priority is held against others. All of this is written for one whose
origin is said in fields and whose priority is a whole number
(`Requirement.Usable`), and nothing around it expects a fault.

Accepting does not ask for that. It reads a mapping and looks at the type, the
key and the configuration, so what is accepted is just as usable as what
was handed over (`Declared.toRequest_usable`). Where components hand over
usable things only, no use of them fails for the kind of a value
(`usable_requirements_are_used`).
-/
import Depot.Proofs.Backend.Satisfied
import Depot.Proofs.Requirement.Priority

namespace Depot

variable {σ : Type}

-- ============================================================= usable

/-- A fault of a value that is not of the kind that it is used as. -/
def Fault.IsRaw : Fault → Prop
  | .badType _ | .noAttribute _ => True
  | _ => False

/-- Whether an origin is said in fields, if it is said. -/
def Provenance.IsStructured : Provenance → Prop
  | .absent | .known _ => True
  | .loose _ => False

/-- Whether a value is a whole number or is not there. A truth value counts as
a number. -/
def Value.IsPriority : Value → Prop
  | .null | .bool _ | .int _ => True
  | _ => False

/-- Whether a requirement can be used wherever one is. -/
structure Requirement.Usable (r : Requirement) : Prop where
  origin : r.provenance.IsStructured
  priority : r.priority.IsPriority

/-- Whether what is handed over as a requirement has no origin and no
priority but usable ones. What is no mapping has none at all. -/
def Declared.Usable : Declared σ → Prop
  | .request r => r.Usable
  | .plain (.object fs) => (Provenance.ofValue (Fields.getD fs "metadata")).IsStructured
      ∧ (Fields.getD fs "priority").IsPriority
  | .plain _ => True

-- ============================================================== using

namespace Provenance

/-- An origin that is not said in fields takes no source. -/
theorem withSource_error {p : Provenance} {id : Value} {fault : Fault}
    (h : p.withSource id = .error fault) : ¬ p.IsStructured := by
  cases p with
  | absent => cases h
  | known m => cases h
  | loose v => exact not_false

/-- Adding a source to an origin gives a structured one. -/
theorem withSource_structured {p q : Provenance} {id : Value} (h : p.withSource id = .ok q) :
    q.IsStructured := by
  cases p with
  | absent =>
      cases h
      trivial
  | known m =>
      cases h
      trivial
  | loose v => cases h

/-- Only an origin that is not structured cannot be written out. -/
theorem toValue_error {p : Provenance} {fault : Fault} (h : p.toValue = .error fault) :
    ¬ p.IsStructured := by
  cases p with
  | absent => cases h
  | known m => cases h
  | loose v => exact not_false

end Provenance

namespace Request

variable {r q : Request σ} {id : Value}

/-- Only an unusable requirement cannot be given a source. -/
theorem withSource_error {fault : Fault} (h : r.withSource id = .error fault) :
    ¬ r.toRequirement.Usable := by
  rcases bind_eq_error.1 h with h | ⟨sourced, -, h⟩
  · rcases bind_eq_error.1 h with h | ⟨p, -, h⟩
    · exact fun usable => Provenance.withSource_error h usable.origin
    · cases h
  · cases h

/-- A usable requirement stays usable with one more source. -/
theorem withSource_usable (h : r.withSource id = .ok q) (usable : r.toRequirement.Usable) :
    q.toRequirement.Usable := by
  obtain ⟨sourced, hsourced, h⟩ := bind_eq_ok.1 h
  cases h
  obtain ⟨p, hp, h⟩ := bind_eq_ok.1 hsourced
  cases h
  exact ⟨Provenance.withSource_structured hp, usable.priority⟩

end Request

/-- Only an unusable requirement cannot be compared. -/
theorem Definition.comparable_error {r : Requirement} {fault : Fault}
    (h : comparable r = .error fault) : ¬ r.Usable := by
  rcases bind_eq_error.1 h with h | ⟨fs, -, h⟩
  · rcases bind_eq_error.1 h with h | ⟨v, -, h⟩
    · exact fun usable => Provenance.toValue_error h usable.origin
    · cases h
  · cases h

/-- A priority is unset or a number. -/
theorem Value.IsPriority.counts {v : Value} (h : v.IsPriority) : v = .null ∨ v.Counts := by
  cases v with
  | null => exact .inl rfl
  | bool b => exact .inr ⟨_, rfl⟩
  | int n => exact .inr ⟨_, rfl⟩
  | float x => cases h
  | str s => cases h
  | list items => cases h
  | object fields => cases h

/-- Usable requirements have one of the highest priority among them. -/
theorem Requirement.exists_highest {rs : List Requirement} (given : rs ≠ [])
    (usable : ∀ r ∈ rs, r.Usable) :
    ∃ top ∈ rs, Value.greatest (rs.map effectivePriority) = .ok top.effectivePriority
      ∧ ∀ r ∈ rs, r.effectivePriority.size ≤ top.effectivePriority.size := by
  have numbers : ∀ v ∈ rs.map effectivePriority, v.Counts := List.forall_mem_map.2 fun r hr =>
    Ranked.counts (usable r hr).priority.counts
  obtain ⟨best, hin, hgreatest, hmost⟩ := Value.exists_greatest (by simpa using given) numbers
  obtain ⟨top, htop, rfl⟩ := List.mem_map.1 hin
  exact ⟨top, htop, hgreatest, fun r hr => hmost _ (List.mem_map_of_mem hr)⟩

-- ========================================================== accepting

/-- A requirement is refused with a requirement error and no other. -/
theorem Requirement.make_error {type key config priority : Value} {provenance : Provenance}
    {fault : Fault} (h : make type key config priority provenance = .error fault) :
    fault.kind? = some .requirement := by
  unfold make at h
  split at h
  · cases h
    rfl
  · split at h
    · cases h
      rfl
    · split at h
      · cases h
      · cases h
        rfl

/-- What is handed over is refused as a requirement, or accepted with the
origin and the priority that it has. -/
theorem Declared.toRequest_usable (x : Declared σ) :
    (∃ fault, x.toRequest = .error fault ∧ fault.kind? = some .requirement)
      ∨ ∃ r, x.toRequest = .ok r ∧ (r.toRequirement.Usable ↔ x.Usable) := by
  cases x with
  | request r => exact .inr ⟨r, rfl, Iff.rfl⟩
  | plain v =>
      cases v with
      | object fs =>
          have hread : (Declared.plain (.object fs) : Declared σ).toRequest
              = (Requirement.ofFields fs >>= fun r => .ok ⟨r, []⟩) := rfl
          rw [hread]
          cases hmake : Requirement.ofFields fs with
          | error fault => exact .inl ⟨fault, rfl, Requirement.make_error hmake⟩
          | ok r =>
              refine .inr ⟨⟨r, []⟩, rfl, ?_⟩
              obtain ⟨-, -, config, -, rfl⟩ := Requirement.make_ok_iff.1 hmake
              exact ⟨fun h => ⟨h.origin, h.priority⟩, fun h => ⟨h.1, h.2⟩⟩
      | _ => exact .inl ⟨_, rfl, rfl⟩

/-- What is usable is so as a request. -/
theorem Declared.usable_of_toRequest {x : Declared σ} {r : Request σ} (h : x.toRequest = .ok r)
    (usable : x.Usable) : r.toRequirement.Usable := by
  rcases x.toRequest_usable with ⟨fault, hfault, -⟩ | ⟨r', hr', hiff⟩
  · cases h.symm.trans hfault
  · cases h.symm.trans hr'
    exact hiff.2 usable

-- ========================================================= components

namespace Definition

variable {d : Definition σ}

/-- Whether a component that the factory makes may hand a thing over as a
requirement, before there are resources. -/
def MayDeclare (d : Definition σ) (x : Declared σ) : Prop :=
  ∃ scope component declared, (Work.inScope scope (d.create (.resources []))).Gives component
    ∧ component.declare.Gives declared ∧ x ∈ declared

/-- Every collected request comes from something that its definition may
declare. -/
theorem mayDeclare_of_declared {scope : Scope} {requests : List (Request σ)} {desk desk' : Desk σ}
    (h : (Work.inScope scope d.declared).run desk = (.ok requests, desk')) {r : Request σ}
    (hr : r ∈ requests) : ∃ x, d.MayDeclare x ∧ x.toRequest = .ok r := by
  rw [Work.run_inScope] at h
  injection h with hrun
  obtain ⟨component, s, hcreate, h⟩ := run_bind_ok.1 (Prod.ext hrun rfl)
  obtain ⟨declared, s', hdeclared, h⟩ := run_bind_ok.1 h
  obtain ⟨desk'', hdeclared, -⟩ := SiteWork.run_ofWork_ok.1 hdeclared
  obtain ⟨hrequests, -⟩ := SiteWork.run_ofExcept_ok.1 h
  obtain ⟨x, hx, hxr⟩ := exists_of_mapM_ok hrequests r hr
  refine ⟨x, ⟨scope, component, declared, ⟨desk, ?_⟩, Work.gives_of_run hdeclared, hx⟩, hxr⟩
  show ((Work.inScope scope _).run desk).1 = _
  rw [Work.run_inScope, hcreate]

/-- Where usable things are declared, usable ones are accepted. -/
theorem usable_of_declared {scope : Scope} {requests : List (Request σ)} {desk desk' : Desk σ}
    (h : (Work.inScope scope d.declared).run desk = (.ok requests, desk'))
    (usable : ∀ x, d.MayDeclare x → x.Usable) : ∀ r ∈ requests, r.toRequirement.Usable := by
  intro r hr
  obtain ⟨x, hx, hxr⟩ := mayDeclare_of_declared h hr
  exact Declared.usable_of_toRequest hxr (usable x hx)

end Definition

-- ========================================================== collecting

section Faults

variable {fault : Fault}

/-- A fault of the library's own kind is not a raw one. -/
theorem Fault.not_isRaw_of_kind {kind : ErrorKind} (h : fault.kind? = some kind) :
    ¬ fault.IsRaw := by
  cases fault with
  | failure => exact not_false
  | _ => cases h

/-- A fault that is put as a failure is none of a value. -/
theorem Fault.not_isRaw_orPut {f : Fault → Fault} (hf : ∀ why, ¬ (f why).IsRaw) (why : Fault) :
    ¬ (Fault.orPut f why).IsRaw := by
  unfold orPut
  split
  · next failed =>
      cases why with
      | failure => exact not_false
      | _ => cases failed
  · exact hf why

/-- Making a scope under a text never fails with a raw fault. -/
theorem Scope.create_error {s : Scope} {name : String} (h : s.create (.str name) = .error fault) :
    ¬ fault.IsRaw := by
  rw [create_eq] at h
  split at h
  · cases h
    exact not_false
  · split at h
    · cases h
      exact not_false
    · cases h

end Faults

namespace Backend

variable {b : Backend σ} {mark : BackendMark} {arena : Scope} {fault : Fault} {d d' : Desk σ}

/-- A fault of a value while one component is asked is about something that
the component declared. -/
theorem collectOne_raw {entry : Value × Definition σ}
    (h : (b.collectOne mark arena entry).run d = (.error fault, d')) (raw : fault.IsRaw) :
    ∃ x, entry.2.MayDeclare x ∧ ¬ x.Usable := by
  rcases run_bind_error.1 h with h | ⟨arena', d₁, -, h⟩
  · injection h with hcreate
    exact absurd raw (Scope.create_error hcreate)
  rcases run_bind_error.1 h with h | ⟨accepted, d₂, haccepted, h⟩
  · obtain ⟨why, -, rfl⟩ := Work.run_rephrase_error.1 h
    refine absurd raw (Fault.not_isRaw_orPut ?_ why)
    exact fun why => not_false
  rcases run_bind_error.1 h with h | ⟨requests, d₃, -, h⟩
  · injection h with hsources
    obtain ⟨r, hr, hsource⟩ := exists_of_mapM_error hsources
    obtain ⟨x, hx, hxr⟩ := Definition.mayDeclare_of_declared (Work.run_rephrase_ok.1 haccepted) hr
    exact ⟨x, hx, fun usable =>
      Request.withSource_error hsource (Declared.usable_of_toRequest hxr usable)⟩
  · cases h

/-- A raw fault while collecting some definitions is due to one that may
declare something unusable. -/
theorem collectFrom_raw {entries : Keyed (Definition σ)}
    (h : (b.collectFrom mark arena entries).run d = (.error fault, d')) (raw : fault.IsRaw) :
    ∃ e ∈ entries, ∃ x, e.2.MayDeclare x ∧ ¬ x.Usable := by
  induction entries generalizing arena d with
  | nil => cases h
  | cons entry entries ih =>
      rcases run_bind_error.1 h with h | ⟨⟨own, arena'⟩, d₁, -, h⟩
      · exact ⟨entry, by simp, collectOne_raw h raw⟩
      · rcases run_bind_error.1 h with h | ⟨others, d₂, -, h⟩
        · obtain ⟨e, he, hx⟩ := ih h
          exact ⟨e, List.mem_cons_of_mem entry he, hx⟩
        · cases h

/-- A raw fault while collecting is due to a definition that may declare
something unusable. -/
theorem collect_raw (h : (b.collect mark).run d = (.error fault, d')) (raw : fault.IsRaw) :
    ∃ e ∈ b.definitions, ∃ x, e.2.MayDeclare x ∧ ¬ x.Usable := by
  rcases run_bind_error.1 h with h | ⟨arena, d₁, -, h⟩
  · injection h with hroot
    unfold Scope.root at hroot
    split at hroot
    · cases hroot
    · cases hroot
      cases raw
  rcases run_bind_error.1 h with h | ⟨requests, d₂, -, h⟩
  · exact collectFrom_raw h raw
  rcases run_bind_error.1 h with h | ⟨_, d₃, -, h⟩
  · injection h with hcollide
    unfold checkCollisions at hcollide
    split at hcollide
    · cases hcollide
    · cases hcollide
      cases raw
  · cases h

/-- What is collected is usable if all that is declared is. -/
theorem usable_of_collect {requests : List (Request σ)}
    (h : (b.collect mark).run d = (.ok requests, d'))
    (usable : ∀ e ∈ b.definitions, ∀ x, e.2.MayDeclare x → x.Usable) :
    ∀ r ∈ requests, r.toRequirement.Usable := by
  obtain ⟨arena, d₁, -, h⟩ := run_bind_ok.1 h
  obtain ⟨collected, d₂, hcollected, h⟩ := run_bind_ok.1 h
  obtain ⟨_, d₃, -, h⟩ := run_bind_ok.1 h
  cases h
  obtain ⟨-, parts, requires, rfl⟩ := run_collectFrom_ok hcollected
  intro r hr
  obtain ⟨e, he, own, ⟨accepted, ⟨desk, haccepted⟩, hsources⟩, hr⟩ :=
    exists_requires_of_mem_flatten requires hr
  obtain ⟨q, hq, hsource⟩ := exists_of_mapM_ok hsources r hr
  refine Request.withSource_usable hsource ?_
  exact Definition.usable_of_declared (Prod.ext haccepted rfl) (usable e he) q hq

end Backend

namespace Definition

variable {definition : Definition σ} {fault : Fault} {d d' : Desk σ}

/-- A raw fault in the checks of one definition is due to something unusable
as well. -/
theorem declaredUnder_raw {arena : Scope} {name : String}
    (h : (definition.declaredUnder arena (.str name)).run d = (.error fault, d'))
    (raw : fault.IsRaw) : ∃ x, definition.MayDeclare x ∧ ¬ x.Usable := by
  rcases run_bind_error.1 h with h | ⟨arena', d₁, -, h⟩
  · injection h with hcreate
    exact absurd raw (Scope.create_error hcreate)
  rcases run_bind_error.1 h with h | ⟨accepted, d₂, haccepted, h⟩
  · obtain ⟨why, -, rfl⟩ := Work.run_rephrase_error.1 h
    split at raw
    · next hkind => exact absurd raw (Fault.not_isRaw_of_kind hkind)
    · cases raw
  rcases run_bind_error.1 h with h | ⟨shown, d₃, -, h⟩
  · injection h with hshown
    obtain ⟨r, hr, hcompare⟩ := exists_of_mapM_error hshown
    obtain ⟨x, hx, hxr⟩ := mayDeclare_of_declared (Work.run_rephrase_ok.1 haccepted) hr
    exact ⟨x, hx, fun usable =>
      comparable_error hcompare (Declared.usable_of_toRequest hxr usable)⟩
  · cases h

/-- A fault of a value while a factory is tried twice is about something that
a component declared. -/
theorem assertPure_raw (h : definition.assertPure.run d = (.error fault, d')) (raw : fault.IsRaw) :
    ∃ x, definition.MayDeclare x ∧ ¬ x.Usable := by
  rcases run_bind_error.1 h with h | ⟨arena, d₁, -, h⟩
  · cases h
  rcases run_bind_error.1 h with h | ⟨⟨first, arena₁⟩, d₂, -, h⟩
  · exact declaredUnder_raw h raw
  rcases run_bind_error.1 h with h | ⟨⟨second, arena₂⟩, d₃, -, h⟩
  · exact declaredUnder_raw h raw
  dsimp only at h
  split at h
  · cases h
    cases raw
  · cases h

end Definition

-- ========================================================== main result

/-- What is handed over as a requirement is refused as one, or it is accepted
and as usable as it was. Where components hand over usable things only,
collecting does not end in a fault of a value, and what it collects is usable;
trying a factory twice does not end in such a fault; and of several usable
requirements there is one of the highest priority. -/
theorem usable_requirements_are_used :
    (∀ x : Declared σ, (∃ fault, x.toRequest = .error fault ∧ fault.kind? = some .requirement)
      ∨ ∃ r, x.toRequest = .ok r ∧ (r.toRequirement.Usable ↔ x.Usable))
    ∧ (∀ (b : Backend σ) (mark : BackendMark) (d : Desk σ),
        (∀ e ∈ b.definitions, ∀ x, e.2.MayDeclare x → x.Usable) →
          (∃ fault d', (b.collect mark).run d = (.error fault, d') ∧ ¬ fault.IsRaw)
          ∨ ∃ requests d', (b.collect mark).run d = (.ok requests, d')
            ∧ ∀ r ∈ requests, r.toRequirement.Usable)
    ∧ (∀ (definition : Definition σ) (d : Desk σ),
        (∀ x, definition.MayDeclare x → x.Usable) →
          ∀ fault d', definition.assertPure.run d = (.error fault, d') → ¬ fault.IsRaw)
    ∧ ∀ rs : List Requirement, rs ≠ [] → (∀ r ∈ rs, r.Usable) →
        ∃ top ∈ rs,
          Value.greatest (rs.map Requirement.effectivePriority) = .ok top.effectivePriority
          ∧ ∀ r ∈ rs, r.effectivePriority.size ≤ top.effectivePriority.size := by
  refine ⟨Declared.toRequest_usable, ?_, ?_, fun rs => Requirement.exists_highest⟩
  · intro b mark d usable
    rcases hrun : (b.collect mark).run d with ⟨fault | requests, d'⟩
    · refine .inl ⟨fault, d', rfl, fun raw => ?_⟩
      obtain ⟨e, he, x, hx, hnot⟩ := Backend.collect_raw hrun raw
      exact hnot (usable e he x hx)
    · exact .inr ⟨requests, d', rfl, Backend.usable_of_collect hrun usable⟩
  · intro definition d usable fault d' hrun raw
    obtain ⟨x, hx, hnot⟩ := Definition.assertPure_raw hrun raw
    exact hnot (usable x hx)

/-- A definition that declares the same every time may declare nothing else. -/
theorem Definition.mem_of_mayDeclare {d : Definition σ} {declared : List (Declared σ)}
    (declares : d.Declares declared) {x : Declared σ} (h : d.MayDeclare x) : x ∈ declared := by
  obtain ⟨scope, component, again, ⟨desk, hcreate⟩, ⟨desk', hagain⟩, hx⟩ := h
  have hdeclares := (declares _ _ _ _ (Prod.ext hcreate rfl)).declares desk'
  have hsame : declared = again := Except.ok.inj (hdeclares.symm.trans hagain)
  exact hsame ▸ hx

/-- A mapping with an origin in fields and a whole priority, beside a request
that says neither. -/
theorem mapping_with_origin_is_used :
    let declared : List (Declared Unit) := [
      .plain (.object [("resource_type", .str "account"), ("requirement_key", .str "main"),
        ("priority", .int 20), ("metadata", .object [("source", .str "team")])]),
      .request (Backend.accountNamed "logs")]
    let b := Backend.withDeclarer declared
    (∀ e ∈ b.definitions, ∀ x, e.2.MayDeclare x → x.Usable)
      ∧ ∃ requests d', (b.collect ⟨.str "app", .null⟩).run ⟨(), []⟩ = (.ok requests, d')
        ∧ (requests.map fun r => r.effectivePriority) = [.int 20, .int 10]
        ∧ ∀ r ∈ requests, r.toRequirement.Usable := by
  intro declared b
  have usable : ∀ e ∈ b.definitions, ∀ x, e.2.MayDeclare x → x.Usable := by
    intro e he x hx
    rw [List.mem_singleton.1 he] at hx
    have hin := Definition.mem_of_mayDeclare (Backend.declares_declarer _ _) hx
    rcases List.mem_cons.1 hin with rfl | hin
    · exact ⟨trivial, trivial⟩
    · rw [List.mem_singleton.1 hin]
      exact ⟨trivial, trivial⟩
  have outcome : ((b.collect ⟨.str "app", .null⟩).run ⟨(), []⟩).1.toOption.map
      (fun requests => requests.map fun r => r.effectivePriority)
        = some [.int 20, .int 10] := rfl
  refine ⟨usable, ?_⟩
  rcases usable_requirements_are_used.2.1 b ⟨.str "app", .null⟩ ⟨(), []⟩ usable with
    ⟨fault, d', hrun, -⟩ | ⟨requests, d', hrun, hrequests⟩
  · rw [hrun] at outcome
    cases outcome
  · rw [hrun] at outcome
    injection outcome with priorities
    exact ⟨requests, d', hrun, priorities, hrequests⟩

/-- A mapping whose origin is a text is accepted, and collecting it ends in a
fault of the text; and one whose priority is a text is accepted, and has no
order with other requirements. -/
theorem unusable_mappings_are_accepted :
    let originated : Declared Unit := .plain (.object [("resource_type", .str "account"),
      ("requirement_key", .str "main"), ("metadata", .str "team")])
    let ranked : Declared Unit := .plain (.object [("resource_type", .str "account"),
      ("requirement_key", .str "main"), ("priority", .str "high")])
    let lacking : Fault := .noAttribute "'str' object has no attribute 'source'"
    (∃ r, originated.toRequest = .ok r ∧ r.provenance = .loose (.str "team"))
      ∧ (((Backend.withDeclarer [originated]).collect ⟨.str "app", .null⟩).run ⟨(), []⟩).1
        = .error lacking
      ∧ ((Backend.declarer "worker" [originated]).assertPure.run ⟨(), []⟩).1 = .error lacking
      ∧ ∃ r, ranked.toRequest = .ok r ∧ r.priority = .str "high"
        ∧ Value.greatest (([r, Backend.accountNamed "main"].map Request.toRequirement).map
            Requirement.effectivePriority)
          = .error (.badType "'>' not supported between instances of 'int' and 'str'") := by
  refine ⟨⟨_, rfl, rfl⟩, rfl, rfl, _, rfl, rfl, rfl⟩

end Depot
