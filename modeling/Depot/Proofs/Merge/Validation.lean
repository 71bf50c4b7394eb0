/-
What can go wrong when a configuration is validated. The checks of the
library, with the arguments that they are meant for (`FieldCheck.Standard`),
take values of some kinds and refuse any other with a fault, whatever a
schema asks for; and what they report shows their bounds, so it has to be
possible to write those. Every part of a validation ends in one of the same
three ways (`Concludes`), and ways to end can be composed. So it is said of a
check, from it of a schema by induction, and then of a whole validation, that
it finds something and has refused nothing, or fails at a value that a check
refuses, or for want of a text (`Schema.Refuses`, `Checks.Refuses`). A value
of the wrong kind is found by its schema before that, but what was found is
lost with the failure.

A merge ends in a validation, so it fails in the same cases even if it is not
strict; in all others only a strict one fails, by what it found
(`validation_fails_by_refusals`).
-/
import Depot.Merge.FieldCheck
import Depot.Proofs.Merge.Run
import Depot.Proofs.Merge.Schema
import Depot.Proofs.Value.Order

namespace Depot.Merge

-- ============================================================== ends

/-- How a validation ends: it has refused nothing and found something, or it
has refused a value because of its kind, or it has to write what cannot be
written. -/
inductive Concludes {α : Type} (refused writable : Prop) (P : α → Prop) : Except Fault α → Prop
  | found (a : α) (h : ¬refused) (ha : P a) : Concludes refused writable P (.ok a)
  | refused (text : String) (h : refused) : Concludes refused writable P (.error (.badType text))
  | untold (h : ¬writable) : Concludes refused writable P (.error Written.tooLongToWrite)

namespace Concludes

variable {α β : Type} {refused refused' writable : Prop} {P : α → Prop} {r : Except Fault α}

theorem ok {a : α} (ha : P a) : Concludes False writable P (.ok a) := .found a not_false ha

theorem imp {Q : α → Prop} (h : Concludes refused writable P r) (himp : ∀ a, P a → Q a) :
    Concludes refused writable Q r := by
  cases h with
  | found a hnot ha => exact .found a hnot (himp a ha)
  | refused text hrefused => exact .refused text hrefused
  | untold hlong => exact .untold hlong

theorem congr (h : Concludes refused writable P r) (hiff : refused ↔ refused') :
    Concludes refused' writable P r := by
  rw [← hiff]
  exact h

/-- Less can be written if more has to be. -/
theorem mono {writable' : Prop} (h : Concludes refused writable P r)
    (himp : writable' → writable) : Concludes refused writable' P r := by
  cases h with
  | found a hnot ha => exact .found a hnot ha
  | refused text hrefused => exact .refused text hrefused
  | untold hlong => exact .untold (mt himp hlong)

/-- Writing something refuses nothing. -/
theorem written {v : Value} {a : α} (hv : writable → v.isWritable = true) (ha : P a) :
    Concludes False writable P (v.written a) := by
  cases hwritable : v.isWritable with
  | true =>
      rw [Value.written_of_writable hwritable]
      exact ok ha
  | false =>
      rw [Value.written_of_not_writable hwritable]
      exact .untold fun h => by simp [hv h] at hwritable

/-- Two steps refuse what either of them refuses. -/
theorem bind {f : α → Except Fault β} {Q : β → Prop} (h : Concludes refused writable P r)
    (hf : ∀ a, P a → Concludes refused' writable Q (f a)) :
    Concludes (refused ∨ refused') writable Q (r >>= f) := by
  cases h with
  | found a hnot ha =>
      show Concludes _ _ _ (f a)
      exact (hf a ha).congr ⟨.inr, fun h => h.resolve_left hnot⟩
  | refused text hrefused => exact .refused text (.inl hrefused)
  | untold hlong => exact .untold hlong

/-- The same where the second step refuses nothing. -/
theorem bindFree {f : α → Except Fault β} {Q : β → Prop} (h : Concludes refused writable P r)
    (hf : ∀ a, P a → Concludes False writable Q (f a)) :
    Concludes refused writable Q (r >>= f) :=
  (h.bind hf).congr (or_iff_left id)

/-- A walk refuses what one of its steps refuses. -/
theorem mapM {ι : Type} {refuses : ι → Prop} {Q : ι → α → Prop} {f : ι → Except Fault α}
    {xs : List ι} (h : ∀ x ∈ xs, Concludes (refuses x) writable (Q x) (f x)) :
    Concludes (∃ x ∈ xs, refuses x) writable (fun found => ∀ x ∈ xs, ∃ a ∈ found, Q x a)
      (xs.mapM f) := by
  induction xs with
  | nil => exact .found [] (by simp) (by simp)
  | cons x xs ih =>
      rw [List.mapM_cons]
      obtain ⟨hx, hxs⟩ := List.forall_mem_cons.1 h
      have hboth : Concludes (refuses x ∨ ∃ x ∈ xs, refuses x) writable
          (fun found => ∀ y ∈ x :: xs, ∃ a ∈ found, Q y a)
          (f x >>= fun a => xs.mapM f >>= fun rest => pure (a :: rest)) := by
        refine hx.bind fun a ha => (ih hxs).bindFree fun rest hrest =>
          ok (List.forall_mem_cons.2 ⟨⟨a, List.mem_cons_self, ha⟩, fun y hy => ?_⟩)
        obtain ⟨b, hb, hq⟩ := hrest y hy
        exact ⟨b, List.mem_cons_of_mem a hb, hq⟩
      exact hboth.congr (List.exists_mem_cons_iff ..).symm

end Concludes

-- ============================================================ checks

namespace FieldCheck

/-- The value has a length. -/
def isSized : Value → Bool
  | .str _ | .list _ | .object _ => true
  | _ => false

/-- The value is a text. -/
def isText : Value → Bool
  | .str _ => true
  | _ => false

/-- A check of the library with arguments of the kinds that it asks for. -/
inductive Standard where
  | resourceName (low high : Int)
  | storageAccountName
  | numberRange (low high : Value) (numbers : low.isNumber = true ∧ high.isNumber = true)
  | arrayLength (low high : Int)
  | pattern (p : Text.Matcher) (description : String)

namespace Standard

/-- The check itself. -/
def check : Standard → FieldCheck
  | .resourceName low high => FieldCheck.resourceName (.int low) (.int high)
  | .storageAccountName => FieldCheck.storageAccountName
  | .numberRange low high _ => FieldCheck.numberRange low high
  | .arrayLength low high => FieldCheck.arrayLength (.int low) (.int high)
  | .pattern p description => FieldCheck.pattern p (.str description)

/-- Whether a check can be made of a value: names and patterns read texts, a
range is one of numbers, and a length is what texts, lists and mappings have. -/
def takes : Standard → Value → Bool
  | .numberRange .., v => v.ratio?.isSome
  | .arrayLength .., v => isSized v
  | _, v => isText v

/-- The bounds that a check shows. -/
def bounds : Standard → List Value
  | .resourceName low high | .arrayLength low high => [.int low, .int high]
  | .numberRange low high _ => [low, high]
  | _ => []

end Standard

/-- A check is one of the library. -/
def IsStandard (check : FieldCheck) : Prop := ∃ s : Standard, s.check = check

/-- A check is one of the library and refuses a value. Which one it is makes no
difference: what a check refuses shows in where it fails. -/
def Refuses (check : FieldCheck) (v : Value) : Prop :=
  ∃ s : Standard, s.check = check ∧ s.takes v = false

/-- A check is one of the library with bounds that can be written. -/
def Legible (check : FieldCheck) : Prop :=
  ∃ s : Standard, s.check = check ∧ (Value.list s.bounds).isWritable = true

variable {low high v : Value} {place : Place} {writable : Prop}

/-- A range refuses what is no number. -/
theorem isBetween_concludes (hlow : low.isNumber = true) (hhigh : high.isNumber = true)
    (v : Value) :
    Concludes (v.ratio?.isSome = false) writable (fun _ => True) (isBetween low high v) := by
  obtain ⟨r, hr⟩ := Value.counts_of_isNumber hlow
  obtain ⟨q, hq⟩ := Value.counts_of_isNumber hhigh
  unfold isBetween
  rw [Value.compare_of_ratio _ hr]
  cases hv : v.ratio? with
  | none => exact .refused _ rfl
  | some x =>
      have hbelow : ∃ b, Value.compare .atMost v high = .ok b := by
        rw [Value.compare_of_ratio _ hv, hq]
        exact ⟨_, rfl⟩
      obtain ⟨b, hb⟩ := hbelow
      rw [hb]
      dsimp only [bind, Except.bind]
      split
      · exact .found b Bool.noConfusion trivial
      · exact .found false Bool.noConfusion trivial

/-- A whole number can be held against any bounds. -/
theorem isBetween_int (hlow : low.isNumber = true) (hhigh : high.isNumber = true) (n : Int) :
    Concludes False writable (fun _ => True) (isBetween low high (.int n)) :=
  (isBetween_concludes hlow hhigh (.int n)).congr (iff_of_false Bool.noConfusion id)

/-- A length refuses what has none. -/
theorem length_concludes (v : Value) :
    Concludes (isSized v = false) writable (fun _ => True) v.length := by
  cases v with
  | list | str | object => exact .found _ Bool.noConfusion trivial
  | null | bool | int | float => exact .refused _ rfl

/-- A pattern refuses what is no text. -/
theorem patternText_concludes (v : Value) :
    Concludes (isText v = false) writable (fun _ => True) v.patternText := by
  cases v with
  | str => exact .found _ Bool.noConfusion trivial
  | null | bool | int | float | list | object => exact .refused _ rfl

/-- Bounds of a length refuse what has none. -/
theorem hasLengthBetween_concludes (low high : Int) (v : Value) :
    Concludes (isSized v = false) writable (fun _ => True)
      (hasLengthBetween (.int low) (.int high) v) := by
  exact (length_concludes v).bindFree fun n _ => isBetween_int rfl rfl n

/-- To report of bounds they have to be written. -/
theorem within_concludes {refused : Prop} {test : Except Fault Bool}
    (h : Concludes refused writable (fun _ => True) test)
    (hbounds : writable → (Value.list [low, high]).isWritable = true)
    (report : String → String → Findings) :
    Concludes refused writable (fun _ => True) (within test low high report) := by
  have hlow : writable → low.isWritable = true := fun h =>
    Value.isWritable_list_iff.1 (hbounds h) low (by simp)
  have hhigh : writable → high.isWritable = true := fun h =>
    Value.isWritable_list_iff.1 (hbounds h) high (by simp)
  refine h.bindFree fun inside _ => ?_
  cases inside with
  | true => exact .ok trivial
  | false =>
      exact (Concludes.written hlow trivial).bindFree fun lowText (_ : True) =>
        (Concludes.written hhigh trivial).bindFree fun highText (_ : True) => .ok trivial

/-- A text has a length and characters, and nothing else has both. -/
theorem named_concludes {α : Type} {length : Except Fault α}
    (hlength : Concludes (isSized v = false) writable (fun _ => True) length)
    (report : α → List Char → Findings) :
    Concludes (isText v = false) writable (fun _ => True)
      (length >>= fun found => v.patternText >>= fun cs => pure (report found cs)) := by
  have heither : Concludes (isSized v = false ∨ isText v = false) writable (fun _ => True)
      (length >>= fun found => v.patternText >>= fun cs => pure (report found cs)) :=
    hlength.bind fun found _ => (patternText_concludes v).bindFree fun cs _ => .ok trivial
  refine heither.congr (or_iff_right_of_imp fun hsized => ?_)
  cases v with
  | str => cases hsized
  | null | bool | int | float | list | object => rfl

namespace Standard

/-- A check of the library refuses just what it does not take. -/
theorem concludes (s : Standard) (v : Value) (place : Place) :
    Concludes (s.takes v = false) ((Value.list s.bounds).isWritable = true) (fun _ => True)
      (s.check v place) := by
  cases s with
  | resourceName low high =>
      exact named_concludes (within_concludes (hasLengthBetween_concludes low high v) id _) _
  | storageAccountName => exact named_concludes (hasLengthBetween_concludes 3 24 v) _
  | numberRange low high numbers =>
      exact within_concludes (isBetween_concludes numbers.1 numbers.2 v) id _
  | arrayLength low high =>
      exact (length_concludes v).bindFree fun n _ => within_concludes (isBetween_int rfl rfl n) id _
  | pattern p description =>
      refine (patternText_concludes v).bindFree fun cs _ => ?_
      split
      · exact .ok trivial
      · exact .ok trivial

end Standard

/-- What a check of the library refuses, and whether it can tell its bounds, does
not depend on which one it is taken for. -/
theorem IsStandard.concludes {check : FieldCheck} (h : IsStandard check) (v : Value)
    (place : Place) :
    Concludes (Refuses check v) (Legible check) (fun _ => True) (check v place) := by
  have hsame : ∀ s : Standard, s.check = check →
      Concludes (s.takes v = false) ((Value.list s.bounds).isWritable = true) (fun _ => True)
        (check v place) := by
    rintro s rfl
    exact s.concludes v place
  obtain ⟨s, hs⟩ := h
  generalize check v place = r at hsame
  cases hsame s hs with
  | found a hnot ha =>
      refine .found a ?_ trivial
      rintro ⟨t, ht, hrefuses⟩
      cases hsame t ht with
      | found b htakes hb => exact htakes hrefuses
  | refused text hrefuses => exact .refused text ⟨s, hs, hrefuses⟩
  | untold hlong =>
      refine .untold ?_
      rintro ⟨t, ht, hlegible⟩
      cases hsame t ht with
      | untold htold => exact htold hlegible

end FieldCheck

-- =========================================================== schemas

namespace Schema

variable {schema : Schema} {v : Value} {place : Place}

/-- Somewhere in a value a check is made of a part that it refuses. -/
def Refuses (schema : Schema) (v : Value) : Prop :=
  ∃ s ∈ schema.sites v, s.value ≠ .null
    ∧ ∃ check ∈ s.schema.checks, FieldCheck.Refuses check s.value

/-- The values that are allowed and the bounds of the checks can be written,
wherever there is something in a value that is held against them. -/
def Legible (schema : Schema) (v : Value) : Prop :=
  ∀ s ∈ schema.sites v, (Value.list (s.schema.listed s.value)).isWritable = true
    ∧ ∀ check ∈ s.schema.checks, FieldCheck.Legible check

/-- What is said of some site is said of the value itself or of a site in one of
its parts. -/
theorem exists_site_iff {q : Schema → Value → Prop} :
    (∃ s ∈ schema.sites v, q s.schema s.value)
      ↔ q schema v ∨ ∃ p ∈ schema.parts v, ∃ s ∈ p.schema.sites p.value, q s.schema s.value := by
  rw [sites_eq, List.exists_mem_cons_iff]
  refine or_congr_right ?_
  constructor
  · rintro ⟨s, hs, hq⟩
    obtain ⟨p, hp, hin⟩ := List.mem_flatMap.1 hs
    obtain ⟨t, ht, rfl⟩ := List.mem_map.1 hin
    exact ⟨p, hp, t, ht, hq⟩
  · rintro ⟨p, hp, t, ht, hq⟩
    exact ⟨t.under p.turn, List.mem_flatMap.2 ⟨p, hp, List.mem_map_of_mem ht⟩, hq⟩

/-- A schema refuses a value for a check of its own or for a part. -/
theorem refuses_iff : schema.Refuses v
    ↔ (v ≠ .null ∧ ∃ check ∈ schema.checks, FieldCheck.Refuses check v)
      ∨ ∃ p ∈ schema.parts v, p.schema.Refuses p.value :=
  exists_site_iff (q := fun schema v =>
    v ≠ .null ∧ ∃ check ∈ schema.checks, FieldCheck.Refuses check v)

/-- What is legible under a schema shows nothing that cannot be written. -/
theorem Legible.self (h : schema.Legible v) :
    (Value.list (schema.listed v)).isWritable = true
      ∧ ∀ check ∈ schema.checks, FieldCheck.Legible check :=
  h ⟨[], schema, v⟩ (by rw [sites_eq]; exact List.mem_cons_self)

theorem Legible.part (h : schema.Legible v) {p : Part} (hp : p ∈ schema.parts v) :
    p.schema.Legible p.value := by
  intro s hs
  refine h (s.under p.turn) ?_
  rw [sites_eq]
  exact List.mem_cons_of_mem _ (List.mem_flatMap.2 ⟨p, hp, List.mem_map_of_mem hs⟩)

/-- What is found together has the issues of the value itself and of its parts. -/
theorem issues_subset_collect {parts : List Findings}
    (hparts : ∀ p ∈ schema.parts v, ∃ found ∈ parts,
      p.schema.issues p.value (place.along [p.turn]) ⊆ found.errors)
    (further : List Findings) :
    schema.issues v place
      ⊆ (Findings.collect (schema.finding v place ++ parts ++ further)).errors := by
  intro issue hissue
  rw [issues_eq, List.mem_append] at hissue
  rcases hissue with hown | hpart
  · unfold Findings.collect finding
    cases haccepts : schema.accepts v with
    | true => simp [haccepts] at hown
    | false =>
        rw [haccepts] at hown
        exact List.mem_append_left _ hown
  · obtain ⟨p, hp, hin⟩ := List.mem_flatMap.1 hpart
    obtain ⟨found, hfound, hfinds⟩ := hparts p hp
    exact List.mem_flatMap.2 ⟨found, by simp [hfound], hfinds hin⟩

/-- A validation by a schema refuses what some check refuses, and finds all that
is not as it is asked for. -/
theorem concludes (standard : schema.HasOnly FieldCheck.IsStandard) (v : Value) (place : Place) :
    Concludes (schema.Refuses v) (schema.Legible v)
      (fun findings => schema.issues v place ⊆ findings.errors) (schema.check v place) := by
  induction schema using induction generalizing v place with
  | step schema ih =>
      by_cases hnull : v = .null
      · subst hnull
        rw [schema.check_null place]
        refine .found _ ?_ (List.Subset.refl _)
        rw [refuses_iff, parts_null]
        simp
      · rw [schema.check_given hnull]
        have hparts : Concludes (∃ p ∈ schema.parts v, p.schema.Refuses p.value) (schema.Legible v)
            (fun parts : List Findings => ∀ p ∈ schema.parts v, ∃ found ∈ parts,
              p.schema.issues p.value (place.along [p.turn]) ⊆ found.errors)
            ((schema.parts v).mapM fun p => p.schema.check p.value (place.along [p.turn])) :=
          .mapM fun p hp =>
            (ih v p hp (standard.of_mem_parts hp) p.value _).mono fun legible => legible.part hp
        have hchecks : Concludes (∃ check ∈ schema.checks, FieldCheck.Refuses check v)
            (schema.Legible v) (fun _ => True)
            (schema.checks.mapM fun check => check v place) :=
          (Concludes.mapM fun check hcheck =>
            ((standard.checks check hcheck).concludes v place).mono
              fun legible => legible.self.2 check hcheck).imp fun _ _ => trivial
        have hown : Concludes False (schema.Legible v) (· = schema.finding v place)
            ((Value.list (schema.listed v)).written (schema.finding v place)) :=
          .written (fun legible => legible.self.1) rfl
        have hall : Concludes (False ∨ (∃ p ∈ schema.parts v, p.schema.Refuses p.value)
            ∨ ∃ check ∈ schema.checks, FieldCheck.Refuses check v) (schema.Legible v)
            (fun findings : Findings => schema.issues v place ⊆ findings.errors) (do
              let own ← (Value.list (schema.listed v)).written (schema.finding v place)
              let parts ← (schema.parts v).mapM fun p =>
                p.schema.check p.value (place.along [p.turn])
              let further ← schema.checks.mapM fun check => check v place
              return .collect (own ++ parts ++ further)) := by
          refine hown.bind fun own hfinding => hparts.bind fun parts hfound =>
            hchecks.bindFree fun further _ => .ok ?_
          rw [hfinding]
          exact issues_subset_collect hfound further
        refine hall.congr ?_
        rw [refuses_iff, false_or, or_comm]
        simp only [ne_eq, hnull, not_false_eq_true, true_and]

end Schema

-- ==================================================== configurations

namespace Checks

variable {c : Checks} {config source : Value}

/-- The paths are texts, and all checks are those of the library. -/
structure Standard (c : Checks) : Prop where
  schemas : ∀ e ∈ c.schemas, (∃ path, e.1 = .str path) ∧ e.2.HasOnly FieldCheck.IsStandard
  fields : ∀ e ∈ c.fields, (∃ path, e.1 = .str path) ∧ ∀ check ∈ e.2, FieldCheck.IsStandard check

/-- Somewhere in a configuration a check is made of a value that it refuses. -/
def Refuses (c : Checks) (config : Value) : Prop :=
  (∃ path schema, (.str path, schema) ∈ c.schemas ∧ schema.Refuses (nestedValue config path))
    ∨ ∃ path checks, (.str path, checks) ∈ c.fields ∧ nestedValue config path ≠ .null
      ∧ ∃ check ∈ checks, FieldCheck.Refuses check (nestedValue config path)

/-- The values that are allowed and the bounds of the checks can be written,
wherever something in a configuration is held against them. -/
def Legible (c : Checks) (config : Value) : Prop :=
  (∀ path schema, (.str path, schema) ∈ c.schemas → schema.Legible (nestedValue config path))
    ∧ ∀ path checks, (.str path, checks) ∈ c.fields → ∀ check ∈ checks, FieldCheck.Legible check

/-- What the checks of one path find, apart from its schema. -/
def further (config source : Value) (e : Value × List FieldCheck) :
    Except Fault (List Findings) := do
  let v ← nestedAt config e.1
  if v.isNull then pure [] else e.2.mapM fun check => check v ⟨e.1, source, config⟩

/-- Further checks ask nothing of a path that leads nowhere. -/
theorem further_absent {path : String} (h : nestedValue config path = .null)
    (checks : List FieldCheck) : further config source (.str path, checks) = .ok [] := by
  show (if (nestedValue config path).isNull then _ else _) = _
  rw [h]
  rfl

/-- Where a path leads somewhere its further checks are made in order. -/
theorem further_given {path : String} (h : nestedValue config path ≠ .null)
    (checks : List FieldCheck) : further config source (.str path, checks)
      = checks.mapM fun check => check (nestedValue config path) ⟨.str path, source, config⟩ := by
  show (if (nestedValue config path).isNull then _ else _) = _
  rw [Value.isNull_eq_false h]
  rfl

/-- All checks are the schemas in order and then the further checks in
order. -/
theorem check_eq (c : Checks) (config source : Value) :
    c.check config source = do
      let bySchema ← c.schemas.mapM fun e => do
        e.2.check (← nestedAt config e.1) ⟨e.1, source, config⟩
      let byField ← c.fields.mapM (further config source)
      return .collect (bySchema ++ byField.flatten) := by
  unfold Checks.check
  rw [flatMapM_eq]
  simp only [bind_assoc, pure_bind]
  rfl

/-- What the checks of one path refuse. -/
theorem further_concludes (path : String) {checks : List FieldCheck}
    (standard : ∀ check ∈ checks, FieldCheck.IsStandard check) (config source : Value) :
    Concludes (nestedValue config path ≠ .null
        ∧ ∃ check ∈ checks, FieldCheck.Refuses check (nestedValue config path))
      (∀ check ∈ checks, FieldCheck.Legible check) (fun _ => True)
      (further config source (.str path, checks)) := by
  by_cases hnull : nestedValue config path = .null
  · rw [further_absent hnull]
    exact .found [] (fun h => h.1 hnull) trivial
  · rw [further_given hnull]
    have hchecks : Concludes
        (∃ check ∈ checks, FieldCheck.Refuses check (nestedValue config path))
        (∀ check ∈ checks, FieldCheck.Legible check) (fun _ => True)
        (checks.mapM fun check => check (nestedValue config path) ⟨.str path, source, config⟩) :=
      (Concludes.mapM fun check hcheck =>
        ((standard check hcheck).concludes _ _).mono fun legible => legible check hcheck).imp
          fun _ _ => trivial
    exact hchecks.congr (and_iff_right hnull).symm

/-- A validation refuses what some check refuses, and finds all that is not as
its schemas ask for. -/
theorem concludes (standard : c.Standard) (config source : Value) :
    Concludes (c.Refuses config) (c.Legible config)
      (fun findings => ∀ path schema, (.str path, schema) ∈ c.schemas →
        schema.issues (nestedValue config path) ⟨.str path, source, config⟩ ⊆ findings.errors)
      (c.check config source) := by
  have hschemas : Concludes
      (∃ e ∈ c.schemas, ∃ path, e.1 = .str path ∧ e.2.Refuses (nestedValue config path))
      (c.Legible config)
      (fun bySchema : List Findings => ∀ e ∈ c.schemas, ∃ found ∈ bySchema,
        ∀ path, e.1 = .str path →
          e.2.issues (nestedValue config path) ⟨.str path, source, config⟩ ⊆ found.errors)
      (c.schemas.mapM fun e => do
        e.2.check (← nestedAt config e.1) ⟨e.1, source, config⟩) := by
    refine .mapM fun e he => ?_
    obtain ⟨path, schema⟩ := e
    obtain ⟨⟨name, rfl⟩, honly⟩ := standard.schemas _ he
    have hschema := (schema.concludes honly (nestedValue config name)
      ⟨.str name, source, config⟩).mono fun legible : c.Legible config => legible.1 name schema he
    refine (hschema.imp fun findings hissues path hpath => ?_).congr ?_
    · cases hpath
      exact hissues
    · constructor
      · exact fun hrefuses => ⟨name, rfl, hrefuses⟩
      · rintro ⟨path, hpath, hrefuses⟩
        cases hpath
        exact hrefuses
  have hfields : Concludes
      (∃ e ∈ c.fields, ∃ path, e.1 = .str path ∧ nestedValue config path ≠ .null
        ∧ ∃ check ∈ e.2, FieldCheck.Refuses check (nestedValue config path))
      (c.Legible config) (fun _ => True) (c.fields.mapM (further config source)) := by
    refine (Concludes.mapM (Q := fun _ _ => True) fun e he => ?_).imp fun _ _ => trivial
    obtain ⟨path, checks⟩ := e
    obtain ⟨⟨name, rfl⟩, hstandard⟩ := standard.fields _ he
    have hfurther := (further_concludes name hstandard config source).mono
      fun legible : c.Legible config => legible.2 name checks he
    refine hfurther.congr ?_
    constructor
    · exact fun hrefuses => ⟨name, rfl, hrefuses⟩
    · rintro ⟨path, hpath, hrefuses⟩
      cases hpath
      exact hrefuses
  rw [check_eq]
  have hall := hschemas.bind fun bySchema hissues => hfields.bindFree fun byField _ =>
    .ok (P := fun findings : Findings => ∀ path schema, (.str path, schema) ∈ c.schemas →
      schema.issues (nestedValue config path) ⟨.str path, source, config⟩ ⊆ findings.errors)
      (a := .collect (bySchema ++ byField.flatten)) fun path schema he issue hissue => by
        obtain ⟨found, hfound, hfinds⟩ := hissues _ he
        exact List.mem_flatMap.2 ⟨found, List.mem_append_left _ hfound, hfinds path rfl hissue⟩
  refine hall.congr (or_congr ?_ ?_)
  · constructor
    · rintro ⟨⟨name, schema⟩, he, path, rfl, hrefuses⟩
      exact ⟨path, schema, he, hrefuses⟩
    · rintro ⟨path, schema, he, hrefuses⟩
      exact ⟨_, he, path, rfl, hrefuses⟩
  · constructor
    · rintro ⟨⟨name, checks⟩, he, path, rfl, hrefuses⟩
      exact ⟨path, checks, he, hrefuses⟩
    · rintro ⟨path, checks, he, hrefuses⟩
      exact ⟨_, he, path, rfl, hrefuses⟩

end Checks

-- ============================================================= merges

/-- The paths of some configurations are settled, and this is what they come
to. -/
def Merger.MergesTo (m : Merger) (configs : List Value) (sources priorities : List Value)
    (fs : Fields) : Prop :=
  ∃ ledger, (m.mergeAll configs (Merger.rootContext configs.length sources priorities)).run {}
    = (.ok fs, ledger)

/-- Paths are always settled where there are no custom strategies. -/
theorem exists_mergesTo {m : Merger} (hcustoms : m.customs = {}) {configs : List Fields}
    {sources priorities : List Value} (hsources : Fits .str configs.length sources)
    (hpriorities : Fits .int configs.length priorities) :
    ∃ fs, m.MergesTo (configs.map .object) sources priorities fs := by
  obtain ⟨shares, hshared⟩ := exists_shared hsources hpriorities
  obtain ⟨fs, notes, hroots⟩ := hshared.root m.default
  have hroot := hroots m ⟨hcustoms, rfl⟩
  refine ⟨fs, m.record notes, ?_⟩
  rw [List.length_map, hroot.origins]
  exact hroot.gives {}

/-- A merge whose paths are settled, and whose rules can be held against the
result, fails if the validation does, and else only if it is strict. -/
theorem Merger.MergesTo.result {m : Merger} {configs sources priorities : List Value} {fs : Fields}
    (h : m.MergesTo configs sources priorities fs) {clashes : List Conflict}
    (hrules : incompatibilities (.object fs) m.rules = .ok clashes) :
    (∀ fault, m.checks.check (.object fs) = .error fault →
        (m.mergeConfigs configs sources priorities).result = .error fault)
      ∧ ∀ findings, m.checks.check (.object fs) = .ok findings → ∃ merged : Merged,
        merged.errors = findings.errors
          ∧ (m.mergeConfigs configs sources priorities).result
            = if m.strict && !merged.success then .error (merged.failure configs)
              else .ok merged := by
  obtain ⟨ledger, hrun⟩ := h
  unfold Merger.mergeConfigs Merger.conclude
  dsimp only
  rw [hrun]
  constructor
  · intro fault hfault
    simp only [bind, Except.bind, hrules, hfault]
  · intro findings hfindings
    simp only [bind, Except.bind, hrules, hfindings]
    exact ⟨_, rfl, rfl⟩

/-- With checks of the library a validation has one of three ends. It finds
something, among which is all that is not as a schema asks for, and has met no
value that a check refuses; or it fails, because of the kind of a value, and
some check is given one that it refuses; or it fails for want of a text, and a
value that is allowed or a bound cannot be written. A merge whose rules can be
applied fails along with its validation, and else only as a strict one, with
what was found unless that cannot be written, or it hands on what was found.
Without custom strategies nothing but rules and validation can fail. -/
theorem validation_fails_by_refusals {m : Merger} (standard : m.checks.Standard) :
    (∀ config source, Concludes (m.checks.Refuses config) (m.checks.Legible config)
      (fun findings => ∀ path schema, (.str path, schema) ∈ m.checks.schemas →
        schema.issues (nestedValue config path) ⟨.str path, source, config⟩ ⊆ findings.errors)
      (m.checks.check config source))
    ∧ (∀ configs sources priorities fs clashes, m.MergesTo configs sources priorities fs →
      incompatibilities (.object fs) m.rules = .ok clashes →
      let result := (m.mergeConfigs configs sources priorities).result
      (∀ fault, m.checks.check (.object fs) = .error fault → result = .error fault)
      ∧ ∀ findings, m.checks.check (.object fs) = .ok findings → ∃ merged : Merged,
        merged.errors = findings.errors ∧ (result = .ok merged
          ∨ m.strict = true ∧ ∃ fault, result = .error fault ∧ (fault.kind? = some .merge
            ∨ fault = Written.tooLongToWrite ∧ ¬(Value.list merged.shown).isWritable = true)))
    ∧ ∀ (configs : List Fields) sources priorities, m.customs = {} →
      Fits .str configs.length sources → Fits .int configs.length priorities →
      ∃ fs, m.MergesTo (configs.map .object) sources priorities fs := by
  refine ⟨m.checks.concludes standard, ?_, ?_⟩
  · intro configs sources priorities fs clashes hmerges hrules
    obtain ⟨hfails, hreturns⟩ := hmerges.result hrules
    refine ⟨hfails, fun findings hfindings => ?_⟩
    obtain ⟨merged, herrors, hresult⟩ := hreturns findings hfindings
    refine ⟨merged, herrors, ?_⟩
    rw [hresult]
    split
    · next hstrict =>
        exact .inr ⟨(Bool.and_eq_true_iff.1 hstrict).1, _, rfl, merged.failure_cases configs⟩
    · exact .inl rfl
  · intro configs sources priorities hcustoms hsources hpriorities
    exact exists_mergesTo hcustoms hsources hpriorities

/-- A size from 0 to 10. -/
def sizeSchema : Schema := .of .number false [FieldCheck.numberRange (.int 0) (.int 10)]

/-- A merger that asks for a size. -/
def sizeMerger : Merger := { checks := { schemas := [(.str "size", sizeSchema)] } }

/-- The merger of the example has standard checks only. -/
theorem sizeMerger_standard : sizeMerger.checks.Standard where
  schemas := by
    rintro e (_ | ⟨_, ⟨⟩⟩)
    refine ⟨⟨_, rfl⟩, ?_, trivial⟩
    rintro check (_ | ⟨_, ⟨⟩⟩)
    exact ⟨.numberRange (.int 0) (.int 10) ⟨rfl, rfl⟩, rfl⟩
  fields := nofun

/-- A size that is a text is refused by its range, and a merge that comes to it
fails; one that is too great is reported. -/
theorem merge_fails_by_mistyped_size :
    let fs : Fields := [("size", .str "big")]
    let great : Value := .object [("size", .int 30)]
    sizeMerger.checks.Standard ∧ sizeMerger.checks.Refuses (.object fs)
      ∧ sizeMerger.MergesTo [.object fs] [] [] fs
      ∧ (∃ text, (sizeMerger.mergeConfigs [.object fs]).result = .error (.badType text))
      ∧ ¬sizeMerger.checks.Refuses great
      ∧ ∃ findings, sizeMerger.checks.check great = .ok findings := by
  intro fs great
  have hmerges : sizeMerger.MergesTo [.object fs] [] [] fs := ⟨_, rfl⟩
  obtain ⟨hvalidation, hmerge, -⟩ := validation_fails_by_refusals sizeMerger_standard
  obtain ⟨text, hfails⟩ : ∃ text, sizeMerger.checks.check (.object fs) = .error (.badType text) :=
    ⟨_, rfl⟩
  obtain ⟨findings, hfinds⟩ : ∃ findings, sizeMerger.checks.check great = .ok findings := ⟨_, rfl⟩
  have hrefuses : sizeMerger.checks.Refuses (.object fs) := by
    have hends := hvalidation (.object fs) (.str "merged-config")
    rw [hfails] at hends
    cases hends with
    | refused _ hrefuses => exact hrefuses
  have hpasses : ¬sizeMerger.checks.Refuses great := by
    have hends := hvalidation great (.str "merged-config")
    rw [hfinds] at hends
    cases hends with
    | found _ hpasses => exact hpasses
  exact ⟨sizeMerger_standard, hrefuses, hmerges, ⟨text, (hmerge _ _ _ _ [] hmerges rfl).1 _ hfails⟩,
    hpasses, findings, hfinds⟩

/-- That a text is no number is an issue, but the validation that would report it
fails, and with it a merge that is not strict. -/
theorem mistyped_size_is_not_reported :
    let config : Value := .object [("size", .str "big")]
    sizeMerger.checks.Standard ∧ sizeMerger.strict = false
      ∧ sizeSchema.issues (nestedValue config "size") ⟨.str "size", .str "merged-config", config⟩
        = [⟨"Type mismatch", .str "size", .str "merged-config", .str "big", .str "Type: number",
            some "TYPE_MISMATCH"⟩]
      ∧ (∀ findings, sizeMerger.checks.check config ≠ .ok findings)
      ∧ ∃ fault, (sizeMerger.mergeConfigs [config]).result = .error fault ∧ fault.kind? = none := by
  refine ⟨sizeMerger_standard, rfl, ?_, fun findings h => ?_, _, rfl, rfl⟩
  · rw [Schema.issues_eq]
    rfl
  · cases h

end Depot.Merge
