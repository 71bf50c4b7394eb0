/-
Reading what was written. A writer of one kind of thing and its reader fit
if what is written reads as what it was and is never null (`Reads`); null
is how a field says that it is not set, so a writer that used it would lose
what it wrote.

Pairs that fit are put together along the data: items of a list, entries of
a mapping, a model in a field. For the fields of a model it only matters
what stands under a key, null counting as nothing (`Fields.getD`), and that
stays as it is when the fields that are null are dropped
(`getD_dropNulls`). So one lemma for each way to read a field is all that a
round trip of a model needs.
-/
import Depot.Data
import Depot.Proofs.Value.Fields
import Depot.Reading.Entries
import Depot.Reading.Scalar

namespace Depot

theorem Entries.named_ofFields (fs : Fields) : Entries.named (.ofFields fs) = fs := by
  unfold named ofFields
  rw [List.filterMap_map]
  exact List.filterMap_some

namespace Reading

variable {α : Type} {read : Value → Reading α} {write : α → Value}

-- ======================================================== single values

/-- A reader and a writer that fit. -/
structure Reads (read : Value → Reading α) (write : α → Value) : Prop where
  back : ∀ a, read (write a) = .ok a
  ne_null : ∀ a, write a ≠ .null

theorem reads_text : Reads text .str := ⟨fun _ => rfl, nofun⟩

theorem reads_truth : Reads truth .bool := ⟨fun _ => rfl, nofun⟩

theorem reads_whole : Reads whole .int := ⟨fun _ => rfl, nofun⟩

theorem reads_mapping : Reads mapping .object := ⟨fun _ => rfl, nofun⟩

/-- A choice is read by its name. -/
theorem reads_oneOf {choices : List (String × α)} {name : α → String}
    (named : ∀ a, choices.lookup (name a) = some a) :
    Reads (oneOf choices) fun a => .str (name a) where
  back a := by
    have hchoice : ((Value.str (name a)).text?.bind fun s => choices.lookup s) = some a := named a
    unfold oneOf
    rw [hchoice]
  ne_null := nofun

-- ========================================================= collections

/-- Items that can all be read are read in order. -/
theorem all_map_ok {β : Type} {f : α → Reading β} {g : α → β} {xs : List α}
    (h : ∀ x ∈ xs, f x = .ok (g x)) : all (xs.map f) = .ok (xs.map g) := by
  induction xs with
  | nil => rfl
  | cons x xs ih =>
      rw [List.map_cons, all, h x (by simp), ih fun y hy => h y (by simp [hy])]
      rfl

theorem under_ok (step : String) (a : α) : under step (.ok a) = .ok a := rfl

/-- Lists are read as they are written, if their items are. -/
theorem Reads.many (h : Reads read write) : Reads (many read) fun as => .list (as.map write) where
  back as := by
    have hitems : Reading.many read (.list (as.map write)) = .ok (as.zipIdx.map Prod.fst) := by
      show all _ = _
      rw [List.zipIdx_map, List.map_map]
      refine all_map_ok fun e _ => ?_
      show (read (write e.1)).under (toString e.2) = .ok e.1
      rw [h.back, under_ok]
    rw [hitems, List.zipIdx_map_fst]
  ne_null := nofun

/-- Mappings are read as they are written, if their values are. -/
theorem Reads.mappingOf (h : Reads read write) :
    Reads (mappingOf read) fun es => .object (es.map fun e => (e.1, write e.2)) where
  back es := by
    have hentries : Reading.mappingOf read (.object (es.map fun e => (e.1, write e.2)))
        = .ok (es.map id) := by
      show all _ = _
      rw [List.map_map]
      refine all_map_ok fun e _ => ?_
      show ((e.1, ·) <$> read (write e.2)).under e.1 = .ok e
      rw [h.back]
      rfl
    rw [hentries, List.map_id]
  ne_null := nofun

theorem reads_model (name : String) {readFields : Fields → Reading α} {writeFields : α → Fields}
    (back : ∀ a, readFields (writeFields a) = .ok a) :
    Reads (model name readFields) fun a => .object (writeFields a) :=
  ⟨back, nofun⟩

-- ============================================================== fields

variable {fs : Fields} {key : String} {known : List String}

theorem get?_eq_some {v : Value} (hv : v ≠ .null) (h : fs.getD key = v) :
    fs.get? key = some v := by
  unfold Fields.getD at h
  cases hget : fs.get? key with
  | none =>
      rw [hget] at h
      exact absurd h.symm hv
  | some w =>
      rw [hget] at h
      exact congrArg some h

/-- A field that is required is read as it was written. -/
theorem field_required (h : Reads read write) {a : α} (hget : fs.getD key = write a) :
    field fs key (required read) = .ok a := by
  unfold field
  rw [get?_eq_some (h.ne_null a) hget]
  show (read (write a)).under key = .ok a
  rw [h.back, under_ok]

/-- A field with a default is read as it was written, where it is given. -/
theorem field_orElse (h : Reads read write) {default a : α} (hget : fs.getD key = write a) :
    field fs key (orElse default read) = .ok a := by
  unfold field
  rw [get?_eq_some (h.ne_null a) hget]
  show (read (write a)).under key = .ok a
  rw [h.back, under_ok]

/-- A field that may be missing is read as it was written. -/
theorem field_optional (h : Reads read write) {o : Option α}
    (hget : fs.getD key = .ofOption write o) : field fs key (optional read) = .ok o := by
  unfold field
  cases o with
  | none =>
      unfold Fields.getD at hget
      cases hkey : fs.get? key with
      | none => rfl
      | some v =>
          rw [hkey] at hget
          change v = .null at hget
          rw [hget]
          rfl
  | some a =>
      rw [get?_eq_some (h.ne_null a) hget]
      have hoptional : optional read (some (write a)) = some <$> read (write a) := by
        have hne := h.ne_null a
        unfold optional
        split
        next hnull => cases hnull
        next hnull => exact absurd (Option.some.inj hnull) hne
        next v _ hv => rw [Option.some.inj hv]
      rw [hoptional, h.back]
      rfl

theorem ofText?_eq (o : Option String) : Value.ofText? o = .ofOption .str o := by
  cases o with
  | none => rfl
  | some s => rfl

theorem field_anything (fs : Fields) (key : String) :
    field fs key (orElse .null anything) = .ok (fs.getD key) := by
  unfold field Fields.getD
  cases fs.get? key with
  | none => rfl
  | some v => rfl

/-- Fields that are all known pass, those that are dropped or not. -/
theorem closed_dropNulls (hknown : fs.keys = known) (a : α) :
    closed known fs.dropNulls (.ok a) = .ok a := by
  unfold closed
  dsimp only
  rw [List.filter_eq_nil_iff.2]
  · rfl
  · intro e he
    rw [← hknown]
    simpa using Fields.keys_dropNulls_subset fs (List.mem_map_of_mem he)

/-- Leaving out nulls brings no unknown fields. -/
theorem closedTo_dropNulls (hknown : fs.keys = known) (a : α) :
    closedTo known (Data.ofEntries (.ofFields fs.dropNulls)) (.ok a) = .ok a := by
  unfold closedTo
  rw [List.filterMap_eq_nil_iff.2]
  intro d hd
  unfold Data.ofEntries Entries.ofFields at hd
  rw [List.map_map] at hd
  obtain ⟨e, he, rfl⟩ := List.mem_map.1 hd
  show (if e.1 ∈ known then none else _) = none
  rw [← hknown, if_pos (Fields.keys_dropNulls_subset fs (List.mem_map_of_mem he))]

end Reading

end Depot
