/-
The configuration of a backend. It is made of loosely typed parts and
checked as a whole, once; afterwards it never changes. What is left out
is filled in by the settings of the process when it is needed.
-/
import Depot.Config.Settings
import Depot.Provider.Registry

namespace Depot

/-- The configuration of a backend. -/
structure Config (σ : Type) extends Profile where
  providers : Option (List (Offer σ)) := none

/-- What may be offered as a naming convention. -/
inductive NamingOffer where
  | convention (n : NamingConvention)
  | value (v : Value)

/-- What may be offered as the providers of a configuration: a list, or a
value that stands for one. -/
inductive ProviderOffers (σ : Type) where
  | list (offers : List (Offer σ))
  | value (v : Value)

/-- The parts of a configuration before they are checked. `entries` holds
all parts but the naming convention and the providers. -/
structure Draft (σ : Type) where
  entries : Data.Entries := []
  naming : NamingOffer := .value .null
  providers : ProviderOffers σ := .value .null

variable {σ : Type}

-- ========================================================== checking

/-- The convention that is offered. -/
def NamingOffer.read : NamingOffer → Reading (Option NamingConvention)
  | .convention n => .ok (some n)
  | .value .null => .ok none
  | .value _ => .refuse ("Value error, naming must implement format_resource_name() and " ++
      "format_resource_group_name()")

/-- The providers that are offered. A value is walked: what it yields are
no providers, but only a registry says so. -/
def ProviderOffers.read : ProviderOffers σ → Except Fault (Option (List (Offer σ)))
  | .list offers => .ok (some offers)
  | .value .null => .ok none
  | .value v => do return some ((← v.iterate).map .value)

/-- The names of the parts of a configuration. -/
def Config.keys : List String :=
  ["environment", "location", "tags", "naming", "providers", "limits"]

open Reading in
/-- The checked configuration. -/
def Config.ofDraft (d : Draft σ) : Except Fault (Config σ) := do
  let providers ← d.providers.read
  let profile := closedTo Config.keys d.entries <|
    Profile.mk <$> part d.entries "environment" (optionalData textOf)
      <*> part d.entries "location" (optionalData textOf)
      <*> part d.entries "tags" (orElse [] textsByText)
      <*> (d.naming.read.under "naming")
      <*> part d.entries "limits" (orElse {} Limits.ofData)
  return ⟨← profile.toExcept, providers⟩

/-- The draft of some entries: its naming convention and its providers are
plain values among them. -/
def Draft.ofEntries (es : Data.Entries) : Draft σ :=
  ⟨es, .value (es.getD "naming").toValue, .value (es.getD "providers").toValue⟩

namespace Config

/-- The configuration that a mapping of plain values, or a list of pairs,
describes. -/
def ofValue (v : Value) : Except Fault (Config σ) := do
  ofDraft (.ofEntries (Data.ofEntries (← v.toEntries)))

/-- The parts of the configuration that its entries hold. -/
def entries (c : Config σ) : Fields :=
  [("environment", .ofText? c.environment), ("location", .ofText? c.location),
    ("tags", .object c.tags), ("limits", .object c.limits.toFields)]

/-- The configuration taken apart again. -/
def draft (c : Config σ) : Draft σ where
  entries := Data.ofFields c.entries
  naming := match c.naming with
    | some n => .convention n
    | none => .value .null
  providers := match c.providers with
    | some offers => .list offers
    | none => .value .null

-- ============================================================ use

/-- The convention for names. -/
def namingConvention (c : Config σ) : NamingConvention := c.naming.getD (.joined {})

/-- The environment: that of the configuration if it is given, else that
of the settings. -/
def environmentOr (c : Config σ) (settings : Except Fault Settings) : Except Fault String :=
  match c.environment with
  | none | some "" => settings.map Settings.environment
  | some name => .ok name

/-- The location: that of the configuration if it is given, else that of
the settings. -/
def locationOr (c : Config σ) (settings : Except Fault Settings) : Except Fault String :=
  match c.location with
  | none | some "" => settings.map Settings.location
  | some name => .ok name

-- ========================================================= describing

/-- The id of an offered provider; a question mark if it has none. -/
def offerId : Offer σ → Value
  | .provider p => p.id.getD (.str "?")
  | .value _ => .str "?"

/-- The configuration as a mapping, providers by their ids. -/
def describe (c : Config σ) : Fields :=
  [("environment", .ofText? c.environment), ("location", .ofText? c.location),
    ("tags", .object c.tags), ("naming", .ofOption (fun n => .object n.toFields) c.naming),
    ("providers", .ofOption (fun offers => .list (offers.map offerId)) c.providers),
    ("limits", .object c.limits.toFields)]

/-- The description of the configuration with parts replaced, unchecked.
What is no part changes nothing. A convention and quotas are described by
their own parts, which a plain value lacks; and what takes the changes
cannot be one of them. -/
def describeWith (c : Config σ) (changes : Fields) : Except Fault Fields := do
  if Fields.has changes "self" then throw (.badType "got multiple values for argument 'self'")
  let changed := Fields.get? changes
  let naming ← match changed "naming" with
    | none => pure (.ofOption (fun n => .object n.toFields) c.naming)
    | some .null => pure .null
    | some v => throw (v.lacks "prefix")
  let offers ← ((changed "providers").map (ProviderOffers.read ∘ .value)).getD (.ok c.providers)
  if let some v := changed "limits" then throw (v.lacks "max_cosmos_accounts")
  return [("environment", (changed "environment").getD (.ofText? c.environment)),
    ("location", (changed "location").getD (.ofText? c.location)),
    ("tags", (changed "tags").getD (.object c.tags)), ("naming", naming),
    ("providers", .ofOption (fun offers => .list (offers.map offerId)) offers),
    ("limits", .object c.limits.toFields)]

end Config

end Depot
