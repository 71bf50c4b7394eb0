/-
The configurations of the built-in kinds of resources, written and read
back. Writing drops what is not set, at every level, and reading takes what
is missing as not set; what a field holds besides is written in the one
form that its reader takes back, plain values with nulls inside them
included. So what is written reads as exactly what it was
(`Kind.BuiltIn.read_write`), whichever configuration it is.
-/
import Depot.Proofs.Reading.Written
import Depot.Provider.Cosmos
import Depot.Provider.Generic
import Depot.Provider.Storage

namespace Depot

open Reading

-- ============================================================== Cosmos

namespace Cosmos

theorem Access.reads : Reads (oneOf Access.choices) fun x => .str x.name := by
  refine reads_oneOf fun x => ?_
  cases x with
  | disabled | byPerimeter | enabled => rfl

/-- A container is read as it was written. -/
theorem Container.read_write (c : Container) :
    Container.ofFields c.toFields.dropNulls = .ok c := by
  have hget : ∀ key, c.toFields.dropNulls.getD key = c.toFields.getD key :=
    Fields.getD_dropNulls (by simp [Fields.keys, Container.toFields])
  unfold Container.ofFields
  rw [field_required reads_text (hget "name"),
    field_required reads_text (hget "partition_key"),
    field_optional reads_text.many (hget "unique_keys"),
    field_optional reads_whole (hget "ttl"),
    field_optional reads_mapping (hget "indexing_policy")]
  exact closed_dropNulls (by rfl) c

/-- A database is written with both its fields. -/
theorem Database.read_write (d : Database) :
    Database.ofFields (d.toFields fun c => c.toFields.dropNulls) = .ok d := by
  have hcontainers := (reads_model "CosmosContainer" Container.read_write).many
  unfold Database.ofFields
  dsimp only
  rw [field_required reads_text (by rfl), field_orElse hcontainers (by rfl)]
  have hkeys : (d.toFields fun c => c.toFields.dropNulls).keys = ["name", "containers"] := rfl
  exact closed_dropNulls hkeys d

/-- An account for documents is read as it was written. -/
theorem Account.read_write (a : Account) : Account.ofEntries (.ofFields a.write) = .ok a := by
  have hdatabases := (reads_model "CosmosDatabase" Database.read_write).many
  have hget : ∀ key, a.write.getD key
      = (a.toFields fun d => d.toFields fun c => c.toFields.dropNulls).getD key :=
    Fields.getD_dropNulls (by simp [Fields.keys, Account.toFields])
  unfold Account.ofEntries
  simp only [Entries.named_ofFields]
  rw [field_optional reads_text (hget "consistency"),
    field_optional reads_truth (hget "enable_serverless"),
    field_optional reads_truth (hget "enable_multi_region"),
    field_optional reads_truth (hget "enable_free_tier"),
    field_optional Access.reads (hget "public_network_access"),
    field_optional reads_text (hget "kind"),
    field_optional reads_text.many (hget "capabilities"),
    field_optional hdatabases (hget "databases"),
    field_optional reads_text (hget "location"),
    field_optional reads_text.many (hget "additional_locations")]
  exact closedTo_dropNulls (by rfl) a

end Cosmos

-- =========================================================== Functions

namespace Functions

/-- A variable is read as it was written. -/
theorem Variable.read_write (v : Variable) : Variable.ofFields v.toFields.dropNulls = .ok v := by
  have hget : ∀ key, v.toFields.dropNulls.getD key = v.toFields.getD key :=
    Fields.getD_dropNulls (by simp [Fields.keys, Variable.toFields])
  simp only [Variable.toFields, ofText?_eq] at hget ⊢
  unfold Variable.ofFields
  rw [field_required reads_text (hget "value"),
    field_optional reads_text (hget "component_id")]
  exact closed_dropNulls (by rfl) v

/-- A variable is written as a mapping, so that the text alone that may
also stand for one is never met. -/
theorem Variable.reads : Reads Variable.ofValue fun v => .object v.toFields.dropNulls :=
  ⟨Variable.read_write, nofun⟩

/-- An app is read as it was written. -/
theorem App.read_write (a : App) : App.ofEntries (.ofFields a.write) = .ok a := by
  have hget : ∀ key, a.write.getD key = (a.toFields fun v => v.toFields.dropNulls).getD key :=
    Fields.getD_dropNulls (by simp [Fields.keys, App.toFields])
  simp only [App.toFields, ofText?_eq] at hget
  unfold App.ofEntries
  simp only [Entries.named_ofFields]
  rw [field_required reads_text (hget "runtime"),
    field_optional reads_text (hget "version"),
    field_optional reads_text (hget "sku"),
    field_optional reads_truth (hget "always_on"),
    field_optional Variable.reads.mappingOf (hget "environment_variables"),
    field_optional reads_text.many (hget "extensions"),
    field_anything, hget "plan", field_anything, hget "storage_account",
    field_optional reads_text (hget "location")]
  exact closedTo_dropNulls (by rfl) a

end Functions

-- ============================================================= Storage

namespace Storage

theorem PublicAccess.reads : Reads (oneOf PublicAccess.choices) fun x => .str x.name := by
  refine reads_oneOf fun x => ?_
  cases x with
  | nothing | blob | container => rfl

theorem Tier.reads : Reads (oneOf Tier.choices) fun x => .str x.name := by
  refine reads_oneOf fun x => ?_
  cases x with
  | hot | cool => rfl

/-- A container for files is read as it was written. -/
theorem Container.read_write (c : Container) :
    Container.ofFields c.toFields.dropNulls = .ok c := by
  have hget : ∀ key, c.toFields.dropNulls.getD key = c.toFields.getD key :=
    Fields.getD_dropNulls (by simp [Fields.keys, Container.toFields])
  simp only [Container.toFields, ofText?_eq] at hget ⊢
  unfold Container.ofFields
  rw [field_required reads_text (hget "name"),
    field_optional reads_text (hget "component_id"),
    field_optional PublicAccess.reads (hget "public_access")]
  exact closed_dropNulls (by rfl) c

/-- An account for files is read as it was written. -/
theorem Account.read_write (a : Account) : Account.ofEntries (.ofFields a.write) = .ok a := by
  have hcontainers := (reads_model "StorageContainer" Container.read_write).many
  have hget : ∀ key, a.write.getD key = (a.toFields fun c => c.toFields.dropNulls).getD key :=
    Fields.getD_dropNulls (by simp [Fields.keys, Account.toFields])
  simp only [Account.toFields, ofText?_eq] at hget
  unfold Account.ofEntries
  simp only [Entries.named_ofFields]
  rw [field_optional reads_text (hget "sku"),
    field_optional Tier.reads (hget "access_tier"),
    field_optional hcontainers (hget "containers"),
    field_optional reads_truth (hget "enable_blob_public_access"),
    field_optional reads_text (hget "location")]
  exact closedTo_dropNulls (by rfl) a

end Storage

-- ============================================================ all kinds

namespace Kind

variable {σ C : Type}

/-- The kinds of resources of the built-in providers. A generic one is
built in with whatever check and merger it is set up. -/
inductive BuiltIn : {C : Type} → Kind σ C → Prop
  | cosmos : BuiltIn Cosmos.kind
  | functions : BuiltIn Functions.kind
  | storage : BuiltIn Storage.kind
  | generic (s : Generic.Setup σ) : BuiltIn s.kind

/-- Every built-in kind reads what it writes. -/
theorem BuiltIn.read_write {k : Kind σ C} (built : k.BuiltIn) (c : C) :
    k.read (k.write c) = .ok c := by
  cases built with
  | cosmos =>
      show (Cosmos.Account.ofEntries (.ofFields c.write)).toExcept = .ok c
      rw [Cosmos.Account.read_write]
      rfl
  | functions =>
      show (Functions.App.ofEntries (.ofFields c.write)).toExcept = .ok c
      rw [Functions.App.read_write]
      rfl
  | storage =>
      show (Storage.Account.ofEntries (.ofFields c.write)).toExcept = .ok c
      rw [Storage.Account.read_write]
      rfl
  | generic s => rfl

end Kind

end Depot
