/-
The version of an app that several apps become. A dotted version stands for
a list of numbers (`versionNumbers_dotted`), which are compared from the left
(`versionBelow_iff`), and a scan that keeps a version until a higher one comes
ends with a highest one (`foldl_highest`).

Not every version has numbers. A part of digits has to be a number, which it is
if they are decimals and not too many; whatever else a part is counts as zero
(`exists_versionNumbers_iff`). One version that is not readable ends the scan of
all (`highestVersion_error`).

The merge scans the versions only if at least two apps set one; otherwise it
asks the first app alone. So the version of a merged app is always a highest
one (`version_is_highest`), but a version that one app sets for all is lost
unless this app is the first (`lone_later_version_is_dropped`).
-/
import Depot.Proofs.Number.Whole
import Depot.Proofs.Work
import Depot.Provider.Functions
import Mathlib.Data.List.Lex
import Mathlib.Order.Lex

namespace Depot.Functions

-- ======================================================= dotted versions

/-- Numbers in plain digits with points between them. -/
def IsDotted (version : String) : Prop :=
  ∀ part ∈ Text.cut '.' version.toList, part ≠ [] ∧ Written.Digits part

instance (version : String) : Decidable (IsDotted version) :=
  List.decidableBAll (fun part : List Char => part ≠ [] ∧ Written.Digits part)
    (Text.cut '.' version.toList)

/-- The numbers of a dotted version. -/
def numbersOf (version : String) : List Int :=
  (Text.cut '.' version.toList).map fun part => (Written.ofDigits part : Int)

/-- A part of digits is read as the number they write. -/
theorem partNumber_digits {part : List Char} (hne : part ≠ []) (h : Written.Digits part) {n : Int}
    (hok : partNumber part = .ok n) : n = Written.ofDigits part := by
  have hall : part.all Text.isDigit = true :=
    List.all_eq_true.2 fun c hc => Written.text_isDigit (h c hc)
  have hsome : part.isEmpty = false := by simpa using hne
  unfold partNumber at hok
  rw [hall, hsome, if_neg (by decide), Written.whole_digits h hne] at hok
  split at hok
  · cases hok
  · injection hok with hok
    exact hok.symm

/-- A dotted version is read as the numbers of its parts. -/
theorem versionNumbers_dotted {version : String} (h : IsDotted version) {ns : List Int}
    (hok : versionNumbers version = .ok ns) : ns = numbersOf version :=
  eq_map_of_mapM_ok (fun part hpart _ hn => partNumber_digits (h part hpart).1 (h part hpart).2 hn)
    hok

/-- A dotted version is paired with the numbers of its parts. -/
theorem withNumbers_dotted {version : String} (h : IsDotted version) {e : String × List Int}
    (hok : withNumbers version = .ok e) : e = (version, numbersOf version) := by
  obtain ⟨ns, hns, hok⟩ := bind_eq_ok.1 hok
  cases hok
  rw [versionNumbers_dotted h hns]

-- ==================================================== readable versions

/-- The parts of a version that are digits are decimals and not too many. -/
def IsReadable (version : String) : Prop :=
  ∀ part ∈ Text.cut '.' version.toList, (∀ c ∈ part, Text.isDigit c = true) →
    (∀ c ∈ part, Text.isDecimal c = true) ∧ part.length ≤ Written.mostDigits

/-- A part can be read unless it is digits that are not decimal or are too
many. -/
theorem exists_partNumber_iff {part : List Char} :
    (∃ n, partNumber part = .ok n)
      ↔ ((∀ c ∈ part, Text.isDigit c = true) →
        (∀ c ∈ part, Text.isDecimal c = true) ∧ part.length ≤ Written.mostDigits) := by
  unfold partNumber
  by_cases hempty : part = []
  · subst hempty
    exact iff_of_true ⟨0, rfl⟩ fun _ => ⟨by simp, Nat.zero_le _⟩
  · by_cases hdigits : ∀ c ∈ part, Text.isDigit c = true
    · have hreads : (part.isEmpty || !part.all Text.isDigit) = false := by
        rw [List.all_eq_true.2 hdigits]
        simpa using hempty
      rw [if_neg (by simp [hreads]), Written.exists_whole_iff hdigits hempty]
      exact ⟨fun h _ => h, fun h => h hdigits⟩
    · have hzero : (part.isEmpty || !part.all Text.isDigit) = true := by
        rw [Bool.or_eq_true, Bool.not_eq_true', Bool.eq_false_iff, ne_eq, List.all_eq_true]
        exact .inr hdigits
      rw [if_pos hzero]
      exact iff_of_true ⟨0, rfl⟩ fun h => absurd h hdigits

/-- A version has numbers if it is readable. -/
theorem exists_versionNumbers_iff {version : String} :
    (∃ ns, versionNumbers version = .ok ns) ↔ IsReadable version :=
  exists_mapM_ok_iff.trans (forall₂_congr fun _ _ => exists_partNumber_iff)

/-- A version fails only if it cannot be read, with a fault about a value. -/
theorem versionNumbers_error {version : String} {fault : Fault}
    (h : versionNumbers version = .error fault) :
    ¬ IsReadable version ∧ ∃ text, fault = .badValue text := by
  constructor
  · intro hreadable
    obtain ⟨ns, hns⟩ := exists_versionNumbers_iff.2 hreadable
    cases h.symm.trans hns
  · obtain ⟨part, -, hpart⟩ := exists_of_mapM_error h
    unfold partNumber at hpart
    split at hpart
    · cases hpart
    · exact Written.whole_error hpart

/-- Where a highest version is found all of them were read. -/
theorem isReadable_of_highestVersion {versions : List String} {best : String}
    (h : highestVersion versions = .ok best) : ∀ v ∈ versions, IsReadable v := by
  obtain ⟨pairs, hpairs, -⟩ := bind_eq_ok.1 h
  intro v hv
  obtain ⟨e, -, he⟩ := mem_of_mapM_ok hpairs hv
  obtain ⟨ns, hns, -⟩ := bind_eq_ok.1 he
  exact exists_versionNumbers_iff.1 ⟨ns, hns⟩

/-- A highest version is found unless a version is not readable. -/
theorem highestVersion_error {versions : List String} {fault : Fault} (hsome : versions ≠ [])
    (h : highestVersion versions = .error fault) :
    ∃ v ∈ versions, ¬ IsReadable v ∧ ∃ text, fault = .badValue text := by
  rcases bind_eq_error.1 h with hpairs | ⟨pairs, hpairs, h⟩
  · obtain ⟨v, hv, hone⟩ := exists_of_mapM_error hpairs
    rcases bind_eq_error.1 hone with hnumbers | ⟨ns, -, hone⟩
    · exact ⟨v, hv, versionNumbers_error hnumbers⟩
    · cases hone
  · cases pairs with
    | cons first rest => cases h
    | nil =>
        obtain ⟨v, rest, rfl⟩ := List.exists_cons_of_ne_nil hsome
        obtain ⟨e, he, -⟩ := mem_of_mapM_ok hpairs List.mem_cons_self
        cases he

-- ============================================================== order

/-- Versions are ordered by the first numbers that differ, and one that ends
before another does stands before it. -/
theorem versionBelow_iff (a b : List Int) : versionBelow a b = true ↔ a < b := by
  induction a generalizing b with
  | nil =>
      cases b with
      | nil => simp [versionBelow]
      | cons y b => simp [versionBelow]
  | cons x a ih =>
      cases b with
      | nil => simp [versionBelow]
      | cons y b =>
          rw [versionBelow, List.cons_lt_cons_iff]
          by_cases hsame : x = y
          · simp [hsame, ih b]
          · simp [hsame]

/-- A scan that keeps an item until a higher one comes ends with a highest
one. -/
theorem foldl_highest {α β : Type} [LinearOrder β] {rank : α → β} {below : α → α → Bool}
    (hbelow : ∀ a b, below a b = true ↔ rank a < rank b) (first : α) (rest : List α) :
    let best := rest.foldl (fun best x => if below best x then x else best) first
    best ∈ first :: rest ∧ ∀ x ∈ first :: rest, rank x ≤ rank best := by
  induction rest generalizing first with
  | nil => simp
  | cons y rest ih =>
      obtain ⟨hmem, hall⟩ := ih (if below first y then y else first)
      rw [List.foldl_cons]
      have hnext : (if below first y then y else first) ∈ [first, y]
          ∧ rank first ≤ rank (if below first y then y else first)
          ∧ rank y ≤ rank (if below first y then y else first) := by
        by_cases hlt : below first y = true
        · rw [if_pos hlt]
          exact ⟨by simp, le_of_lt ((hbelow first y).1 hlt), le_refl _⟩
        · rw [if_neg hlt]
          exact ⟨by simp, le_refl _, not_lt.1 fun h => hlt ((hbelow first y).2 h)⟩
      obtain ⟨hkept, hfirst, hy⟩ := hnext
      have htop := hall _ List.mem_cons_self
      refine ⟨?_, List.forall_mem_cons.2 ⟨hfirst.trans htop, List.forall_mem_cons.2
        ⟨hy.trans htop, fun x hx => hall x (List.mem_cons_of_mem _ hx)⟩⟩⟩
      rcases List.mem_cons.1 hmem with hbest | hrest
      · rw [hbest]
        exact List.mem_append_left rest hkept
      · exact List.mem_append_right [first, y] hrest

/-- The pair that is chosen is one of them, and none is higher. -/
theorem firstHighest_ok {pairs : List (String × List Int)} {best : String}
    (h : firstHighest pairs = .ok best) :
    ∃ numbers, (best, numbers) ∈ pairs ∧ ∀ e ∈ pairs, e.2 ≤ numbers := by
  cases pairs with
  | nil => cases h
  | cons first rest =>
      cases h
      exact ⟨_, foldl_highest (fun a b => versionBelow_iff a.2 b.2) first rest⟩

/-- A version is one of several and no other one is higher. -/
def IsHighest (versions : List String) (version : String) : Prop :=
  version ∈ versions ∧ ∀ other ∈ versions, numbersOf other ≤ numbersOf version

instance (versions : List String) (version : String) : Decidable (IsHighest versions version) :=
  inferInstanceAs (Decidable (_ ∧ ∀ other ∈ versions, _))

/-- The version that is chosen among dotted ones is a highest. -/
theorem isHighest_highestVersion {versions : List String} (hdotted : ∀ v ∈ versions, IsDotted v)
    {best : String} (hok : highestVersion versions = .ok best) : IsHighest versions best := by
  obtain ⟨pairs, hpairs, hbest⟩ := bind_eq_ok.1 hok
  obtain ⟨numbers, hmem, hall⟩ := firstHighest_ok hbest
  rw [eq_map_of_mapM_ok (fun v hv _ he => withNumbers_dotted (hdotted v hv) he) hpairs]
    at hmem hall
  obtain ⟨v, hv, hsame⟩ := List.mem_map.1 hmem
  cases hsame
  exact ⟨hv, fun other hother => hall _ (List.mem_map_of_mem hother)⟩

-- ============================================================== merging

/-- The versions that apps set, one after the other. -/
def versionsOf (apps : List App) : List String := apps.filterMap App.version

/-- The version of the app that apps become. -/
def versionOfAll (first : App) (apps : List App) : Except Fault (Option String) :=
  if 1 < (versionsOf apps).length then some <$> highestVersion (versionsOf apps)
  else .ok first.version

/-- The tier of the app that apps become. -/
def skuOfAll (apps : List App) : Except Fault (Option String) :=
  if (apps.filterMap App.sku).isEmpty then .ok none
  else some <$> highestSku (apps.filterMap App.sku)

/-- The app that apps become with their common version, tier and
variables. -/
def whole (first : App) (apps : List App) (version sku : Option String) (environment : Variables) :
    App :=
  let extensions := (apps.flatMap fun a => a.extensions.getD []).eraseDups
  { first with
    version := version
    sku := sku
    alwaysOn := if apps.any fun a => a.alwaysOn = some true then some true else first.alwaysOn
    environment := some environment
    extensions := if extensions.isEmpty then none else some extensions }

/-- The version, the tier and the variables are told one after the other,
and each of them can be at fault. -/
theorem merge_eq (first : App) (rest : List App) :
    merge (first :: rest)
      = versionOfAll first (first :: rest) >>= fun version =>
        skuOfAll (first :: rest) >>= fun sku =>
        mergeVariables (first :: rest) >>= fun environment =>
        .ok (whole first (first :: rest) version sku environment) := by
  unfold merge versionOfAll skuOfAll versionsOf
  dsimp only
  split
  · split
    · rfl
    · rfl
  · split
    · rfl
    · rfl

/-- Several versions give the highest; one or none gives that of the first
app. -/
theorem versionOfAll_ok {first : App} {apps : List App} {version : Option String}
    (h : versionOfAll first apps = .ok version) :
    (∃ best, highestVersion (versionsOf apps) = .ok best ∧ version = some best
        ∧ 1 < (versionsOf apps).length)
      ∨ (versionsOf apps).length ≤ 1 ∧ version = first.version := by
  unfold versionOfAll at h
  split at h
  · next hseveral =>
      cases hbest : highestVersion (versionsOf apps) with
      | error fault =>
          rw [hbest] at h
          cases h
      | ok best =>
          rw [hbest] at h
          cases h
          exact .inl ⟨best, rfl, rfl, hseveral⟩
  · next hfew =>
      cases h
      exact .inr ⟨Nat.not_lt.1 hfew, rfl⟩

/-- The version of a merged app is a highest one of those that are set. It
has none just if the first app has none and at most one app has one. -/
theorem version_is_highest {first merged : App} {rest : List App}
    (hdotted : ∀ v ∈ versionsOf (first :: rest), IsDotted v)
    (hok : merge (first :: rest) = .ok merged) :
    (∀ v, merged.version = some v → IsHighest (versionsOf (first :: rest)) v)
      ∧ (merged.version = none
        ↔ first.version = none ∧ (versionsOf (first :: rest)).length ≤ 1) := by
  rw [merge_eq] at hok
  obtain ⟨version, hversion, hok⟩ := bind_eq_ok.1 hok
  obtain ⟨sku, -, hok⟩ := bind_eq_ok.1 hok
  obtain ⟨environment, -, hok⟩ := bind_eq_ok.1 hok
  cases hok
  show (∀ v, version = some v → _) ∧ (version = none ↔ _)
  rcases versionOfAll_ok hversion with ⟨best, hbest, rfl, hseveral⟩ | ⟨hfew, rfl⟩
  · constructor
    · intro v hv
      cases hv
      exact isHighest_highestVersion hdotted hbest
    · exact ⟨nofun, fun ⟨_, hfew⟩ => absurd hseveral (Nat.not_lt.2 hfew)⟩
  · constructor
    · intro v hv
      -- the first app sets it, so it is the only one
      have hversions : versionsOf (first :: rest) = v :: versionsOf rest :=
        List.filterMap_cons_some hv
      rw [hversions, List.length_cons] at hfew
      have hnone : versionsOf rest = [] := List.length_eq_zero_iff.1 (by omega)
      rw [hversions, hnone]
      exact ⟨List.mem_singleton_self v, fun other hother => by rw [List.mem_singleton.1 hother]⟩
    · exact (and_iff_left hfew).symm

/-- Apps that ask for three versions of Python, the one without a version
among them. -/
def pythonApps : List App :=
  [{ runtime := "python", version := some "3.9" }, { runtime := "python", version := some "3.11" },
    { runtime := "python" }, { runtime := "python", version := some "3.10" }]

/-- Of these 3.11 is the highest, as a number and not as a text. -/
theorem highest_python_is_kept :
    versionsOf pythonApps = ["3.9", "3.11", "3.10"] ∧ ∃ merged, merge pythonApps = .ok merged
      ∧ merged.version = some "3.11" ∧ IsHighest (versionsOf pythonApps) "3.11" := by
  have hdotted : ∀ v ∈ versionsOf pythonApps, IsDotted v := by decide
  exact ⟨rfl, _, rfl, rfl, (version_is_highest hdotted rfl).1 _ rfl⟩

/-- Apps of which only one has a version. -/
def nodeApps : List App := [{ runtime := "node" }, { runtime := "node", version := some "18" }]

/-- The only version is lost if it does not come first. -/
theorem lone_later_version_is_dropped :
    nodeApps.Pairwise (fun a b => canMerge a b = true ∧ canMerge b a = true)
      ∧ (∀ v ∈ versionsOf nodeApps, IsDotted v) ∧ versionsOf nodeApps = ["18"]
      ∧ (∃ merged, merge nodeApps = .ok merged ∧ merged.version = none)
      ∧ ∃ merged, merge nodeApps.reverse = .ok merged ∧ merged.version = some "18" := by
  have hdotted : ∀ v ∈ versionsOf nodeApps, IsDotted v := by decide
  exact ⟨by decide, hdotted, rfl, ⟨_, rfl, rfl⟩, _, rfl, rfl⟩

end Depot.Functions
