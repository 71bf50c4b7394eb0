/-
Merging a merged app with itself. A request that several became may be
merged again, and copies of it should give just that request
(`merged_request_is_stable`).

What helps is how a merge leaves an app (`App.Settled`). Its variables have
lost their owners and are under their names, so that they are not named a
second time, and no two of them clash; its extensions are listed once. From
there each field of copies comes to what it was (`merge_copies`), and the
group passes every step that the first one passed (`StandsFor`).

The version is the exception. It is read as numbers only where several
versions are set. A first merge may have taken it from one request unread;
then its copies are the first to read it, and a part with too many digits is
a fault (`long_version_cannot_be_merged_again`), though the check accepts it.
-/
import Depot.Proofs.Functions.Variables
import Depot.Proofs.Functions.Version
import Depot.Proofs.Provider.Compatible
import Depot.Proofs.Provider.Faithful
import Depot.Proofs.Requirement.Key
import Depot.Proofs.Value.Greatest

namespace Depot.Functions

variable {σ : Type}

-- ============================================================ versions

/-- A part of a version has more digits than a number may have. -/
def TooLong (version : String) : Prop :=
  ∃ part ∈ Text.cut '.' version.toList,
    (∀ c ∈ part, Text.isDigit c = true) ∧ Written.mostDigits < part.length

/-- A version of no more characters than that is not too long. -/
theorem not_tooLong_of_length {version : String}
    (h : version.toList.length ≤ Written.mostDigits) : ¬ TooLong version := by
  rintro ⟨part, hpart, -, hlong⟩
  have hpiece : part.length ≤ (Text.cut '.' version.toList).flatten.length :=
    (List.sublist_flatten_of_mem hpart).length_le
  rw [Text.flatten_cut] at hpiece
  have hchars := List.length_filter_le (fun c : Char => decide (c ≠ '.')) version.toList
  omega

/-- A version that passes the check has decimals only, besides points and a
line feed at its end. -/
theorem isDecimal_of_isVersion {cs : List Char} (h : isVersion cs = true) {c : Char} (hc : c ∈ cs)
    (hpoint : c ≠ '.') (hbreak : c ≠ '\n') : Text.isDecimal c = true := by
  unfold isVersion at h
  dsimp only at h
  generalize hbody : (if cs.getLast? = some '\n' then cs.dropLast else cs) = body at h
  have hin : c ∈ body := by
    rw [← hbody]
    split
    · next hlast =>
        rw [← List.dropLast_append_getLast? _ hlast] at hc
        rcases List.mem_append.1 hc with hfront | hend
        · exact hfront
        · exact absurd (List.mem_singleton.1 hend) hbreak
    · exact hc
  have hpiece : c ∈ (Text.cut '.' body).flatten := by
    rw [Text.flatten_cut]
    exact List.mem_filter.2 ⟨hin, by simpa using hpoint⟩
  obtain ⟨part, hpart, hcpart⟩ := List.mem_flatten.1 hpiece
  have hall := List.all_eq_true.1 h part hpart
  rw [Bool.and_eq_true] at hall
  exact List.all_eq_true.1 hall.2 c hcpart

/-- A valid app has a version in the form of one, if it has any. -/
theorem isVersion_of_valid {a : App} (h : (check a).valid = true) {version : String}
    (hversion : a.version = some version) (hset : version ≠ "") :
    isVersion version.toList = true := by
  by_contra hnot
  rw [Bool.not_eq_true] at hnot
  simp [check, hversion, hnot, Verdict.ofTexts, Verdict.ofMessages] at h

/-- A version that passes the check can only be too long. -/
theorem isReadable_iff {a : App} (h : (check a).valid = true) {version : String}
    (hversion : a.version = some version) : IsReadable version ↔ ¬ TooLong version := by
  constructor
  · rintro hreadable ⟨part, hpart, hdigits, hlong⟩
    exact absurd hlong (Nat.not_lt.2 (hreadable part hpart hdigits).2)
  · intro hshort part hpart hdigits
    refine ⟨fun c hc => ?_, Nat.not_lt.1 fun hlong => hshort ⟨part, hpart, hdigits, hlong⟩⟩
    have hin : c ∈ (Text.cut '.' version.toList).flatten := List.mem_flatten.2 ⟨part, hpart, hc⟩
    rw [Text.flatten_cut, List.mem_filter] at hin
    have hset : version ≠ "" := by
      rintro rfl
      cases hin.1
    refine isDecimal_of_isVersion (isVersion_of_valid h hversion hset) hin.1 (by simpa using hin.2) ?_
    rintro rfl
    exact absurd (hdigits _ hc) (by decide)

-- ========================================================= merged apps

/-- What an app that came of a merge has: variables of different names without
owners, not too many, and different extensions if any. -/
structure App.Settled (a : App) : Prop where
  environment : a.environment = some a.listed
  names : (Table.keys a.listed).Nodup
  owners : ∀ e ∈ a.listed, e.2.owner = none
  count : a.listed.length ≤ maxVariables
  extensions : ∀ es, a.extensions = some es → es.Nodup ∧ es ≠ []

/-- What comes out of a merge is settled. -/
theorem settled_of_merge {first merged : App} {rest : List App}
    (h : merge (first :: rest) = .ok merged) : merged.Settled := by
  rw [merge_eq] at h
  obtain ⟨version, -, h⟩ := bind_eq_ok.1 h
  obtain ⟨sku, -, h⟩ := bind_eq_ok.1 h
  obtain ⟨t, ht, h⟩ := bind_eq_ok.1 h
  cases h
  rcases mergeVariables_cases (first :: rest) with
    ⟨x, -, y, -, -, -, hclash⟩ | ⟨-, -, hfull⟩ | ⟨-, hfits, t', hok, hholds⟩
  · cases hclash.symm.trans ht
  · cases hfull.symm.trans ht
  · cases hok.symm.trans ht
    have hnodup : (Table.keys t).Nodup := by
      rw [hholds.names]
      exact nodup_eraseDups _
    refine ⟨rfl, hnodup, fun e he => ?_, ?_, fun es hes => ?_⟩
    · obtain ⟨x, -, -, hvariable⟩ := hholds.exists_of_lookup (Table.lookup_of_mem hnodup he)
      rw [hvariable]
    · rw [← hholds.length_eq] at hfits
      exact hfits
    · dsimp only [whole] at hes
      split at hes
      · cases hes
      · next hsome =>
          cases hes
          exact ⟨nodup_eraseDups _, by simpa using hsome⟩

variable {a : App} {n : Nat}

/-- The variables of a merged app are under their names already. -/
theorem App.Settled.nameOf_eq (h : a.Settled) {e : String × Variable} (he : e ∈ a.listed) :
    nameOf e = e.1 := by
  unfold nameOf settingName
  rw [h.owners e he]

theorem App.Settled.agree (h : a.Settled) : Agree a a := by
  intro x hx y hy hname
  rw [h.nameOf_eq hx, h.nameOf_eq hy] at hname
  have hboth := Table.lookup_of_mem h.names hx
  rw [hname, Table.lookup_of_mem h.names hy] at hboth
  exact (congrArg Variable.value (Option.some.inj hboth)).symm

theorem App.Settled.canMerge_self (h : a.Settled) : canMerge a a = true := by
  have hmajor : sameMajor a.version a.version = true := by
    cases a.version with
    | none => rfl
    | some v => simp [sameMajor]
  exact (canMerge_both_iff.2 ⟨rfl, hmajor, h.agree⟩).1

/-- The variables of copies of a merged app come together as they are. -/
theorem App.Settled.mergeVariables_copies (h : a.Settled) (hsome : 0 < n) :
    mergeVariables (List.replicate n a) = .ok a.listed := by
  have hvars : variablesOf (List.replicate n a) = (List.replicate n a.listed).flatten := by
    unfold variablesOf
    rw [List.flatMap_replicate]
    rfl
  have hin : ∀ e, e ∈ variablesOf (List.replicate n a) ↔ e ∈ a.listed := by
    intro e
    rw [hvars]
    simp [List.mem_flatten, List.mem_replicate, Nat.ne_of_gt hsome]
  have hnames : namesOf (variablesOf (List.replicate n a)) = Table.keys a.listed := by
    have hkeys : a.listed.map nameOf = Table.keys a.listed :=
      List.map_congr_left fun e he => h.nameOf_eq he
    unfold namesOf
    rw [hvars, List.map_flatten, List.map_replicate, hkeys, eraseDups_copies h.names hsome]
  rcases mergeVariables_cases (List.replicate n a) with
    ⟨x, hx, y, hy, hname, hvalues, -⟩ | ⟨-, hfull, -⟩ | ⟨-, -, t, hok, hholds⟩
  · exact absurd (h.agree x ((hin x).1 hx) y ((hin y).1 hy) hname) hvalues
  · rw [hnames, Table.keys, List.length_map] at hfull
    exact absurd hfull (Nat.not_lt.2 h.count)
  · -- both tables have the names in one order, and under each the same value
    rw [hok]
    refine congrArg Except.ok (Table.ext_lookup (hholds.names.trans hnames) ?_ fun key hkey => ?_)
    · rw [hholds.names, hnames]
      exact h.names
    · rw [hholds.names, hnames] at hkey
      obtain ⟨e, he, rfl⟩ := List.mem_map.1 hkey
      have hvalue := hholds.values e ((hin e).2 he)
      rw [h.nameOf_eq he] at hvalue
      rw [hvalue, Table.lookup_of_mem h.names he, ← h.owners e he]

/-- A scan for the best finds nothing better than an item among its copies. -/
theorem foldl_copies {α : Type} (better : α → α → Prop) [DecidableRel better] (x : α) (n : Nat) :
    (List.replicate n x).foldl (fun best y => if better best y then y else best) x = x := by
  induction n with
  | zero => rfl
  | succ n ih => rw [List.replicate_succ, List.foldl_cons, ite_self, ih]

theorem highestSku_copies (sku : String) (n : Nat) :
    highestSku (List.replicate (n + 1) sku) = .ok sku := by
  unfold highestSku
  rw [List.replicate_succ, highestRanked, foldl_copies fun best s => skuRank best < skuRank s]

/-- Of copies the highest version is their own, if it can be read. -/
theorem highestVersion_copies {version : String} (h : IsReadable version) (n : Nat) :
    highestVersion (List.replicate (n + 1) version) = .ok version := by
  obtain ⟨ns, hns⟩ := exists_versionNumbers_iff.2 h
  have hone : withNumbers version = .ok (version, ns) := by
    unfold withNumbers
    rw [hns]
    rfl
  unfold highestVersion
  rw [mapM_replicate_of_ok hone]
  show firstHighest (List.replicate (n + 1) (version, ns)) = _
  rw [List.replicate_succ, firstHighest,
    foldl_copies fun best v : String × List Int => versionBelow best.2 v.2 = true]

/-- Copies keep their sku. -/
theorem skuOfAll_copies (a : App) (n : Nat) :
    skuOfAll (List.replicate (n + 1) a) = .ok a.sku := by
  unfold skuOfAll
  cases hsku : a.sku with
  | none =>
      rw [List.filterMap_replicate_of_none hsku]
      rfl
  | some sku =>
      rw [List.filterMap_replicate_of_some hsku, highestSku_copies]
      rfl

/-- A settled app is whole again from its copies. -/
theorem whole_copies (h : a.Settled) (n : Nat) :
    whole a (List.replicate (n + 1) a) a.version a.sku a.listed = a := by
  have hforced : (if (List.replicate (n + 1) a).any (fun a => a.alwaysOn = some true) = true
      then some true else a.alwaysOn) = a.alwaysOn := by
    by_cases hon : a.alwaysOn = some true <;> simp [hon]
  have hextensions : (List.replicate (n + 1) a).flatMap (fun a => a.extensions.getD [])
      = (List.replicate (n + 1) (a.extensions.getD [])).flatten := List.flatMap_replicate
  have hall : (let all := (List.replicate (n + 1) (a.extensions.getD [])).flatten.eraseDups
      if all.isEmpty then none else some all) = a.extensions := by
    cases hes : a.extensions with
    | none => simp
    | some es =>
        obtain ⟨hnodup, hsome⟩ := h.extensions es hes
        rw [Option.getD_some, eraseDups_copies hnodup n.succ_pos]
        exact if_neg (by simpa using hsome)
  unfold whole
  rw [hforced, hextensions, ← h.environment]
  dsimp only at hall ⊢
  rw [hall]

/-- Copies keep their version, if it can be read. -/
theorem versionOfAll_copies (hreadable : ∀ v, a.version = some v → IsReadable v) (n : Nat) :
    versionOfAll a (List.replicate (n + 1) a) = .ok a.version := by
  unfold versionOfAll versionsOf
  cases hversion : a.version with
  | none =>
      rw [List.filterMap_replicate_of_none hversion]
      rfl
  | some v =>
      rw [List.filterMap_replicate_of_some hversion, highestVersion_copies (hreadable v hversion)]
      split
      · rfl
      · rfl

/-- Copies of a merged app become that app, if its version is readable. -/
theorem merge_copies (h : a.Settled) (hreadable : ∀ v, a.version = some v → IsReadable v) (n : Nat) :
    merge (List.replicate (n + 1) a) = .ok a := by
  rw [List.replicate_succ, merge_eq, ← List.replicate_succ]
  refine bind_eq_ok.2 ⟨a.version, versionOfAll_copies hreadable n, ?_⟩
  refine bind_eq_ok.2 ⟨a.sku, skuOfAll_copies a n, ?_⟩
  refine bind_eq_ok.2 ⟨a.listed, h.mergeVariables_copies n.succ_pos, ?_⟩
  exact congrArg Except.ok (whole_copies h n)

/-- The version of several copies is read, and is a fault if it cannot be. -/
theorem merge_copies_error {version : String} (hversion : a.version = some version)
    (hunreadable : ¬ IsReadable version) (n : Nat) :
    ∃ text, merge (List.replicate (n + 2) a) = .error (.badValue text) := by
  have hversions : versionsOf (List.replicate (n + 2) a) = List.replicate (n + 2) version :=
    List.filterMap_replicate_of_some hversion
  have hin : version ∈ List.replicate (n + 2) version := by simp
  cases hbest : highestVersion (List.replicate (n + 2) version) with
  | ok best => exact absurd (isReadable_of_highestVersion hbest version hin) hunreadable
  | error fault =>
      obtain ⟨v, -, -, text, rfl⟩ := highestVersion_error (List.ne_nil_of_mem hin) hbest
      refine ⟨text, ?_⟩
      rw [List.replicate_succ, merge_eq, ← List.replicate_succ]
      refine bind_eq_error.2 (.inl ?_)
      unfold versionOfAll
      rw [hversions, if_pos (by simp), hbest]
      rfl

-- ============================================================ requests

/-- A request stands for an app that came of a merge. -/
structure StandsFor (merged : Request σ) (a : App) : Prop where
  settled : a.Settled
  valid : (check a).valid = true
  config : merged.config = a.write
  type : merged.type.isTruthy = true
  key : merged.key.isTruthy = true
  same : merged.type.same merged.type = true
  order : merged.priority.hasOrder = true
  bare : merged.validators = []

/-- What the provider merges stands for an app. -/
theorem standsFor_of_merge {first second merged : Request σ} {rest : List (Request σ)} {d d' : Desk σ}
    (h : (kind.provider.merge (first :: second :: rest)).run d = (.ok merged, d')) :
    ∃ a, StandsFor merged a := by
  have hjoin := congrArg Prod.fst ((Kind.run_mergeRequests model first second rest d).symm.trans h)
  obtain ⟨hfits, a, hgroup, hconclude⟩ := Model.join_ok_iff.1 hjoin
  obtain ⟨hvalid, htype, hkey, priority, hpriority, rfl⟩ := Model.conclude_ok_iff.1 hconclude
  obtain ⟨apps, hread, -, hmerge⟩ := Model.mergeGroup_ok hgroup
  obtain ⟨base, hbase, -⟩ := mem_of_mapM_ok hread List.mem_cons_self
  obtain ⟨base, more, rfl⟩ := List.exists_cons_of_ne_nil (List.ne_nil_of_mem hbase)
  exact ⟨a, settled_of_merge hmerge, hvalid, rfl, htype, hkey,
    hfits.types first.toRequirement List.mem_cons_self, Value.hasOrder_of_greatest hpriority, rfl⟩

/-- A request that stands for an app is read as that app when it is merged
again. -/
theorem StandsFor.read {merged : Request σ} (h : StandsFor merged a) :
    model.readForMerge merged.toRequirement = .ok a := by
  have hread : model.read (.ofFields merged.config) = .ok a := by
    rw [h.config]
    exact App.read_write a
  unfold Model.readForMerge
  rw [hread]

/-- The version of the app is that of the request. -/
theorem StandsFor.version {merged : Request σ} (h : StandsFor merged a) :
    Fields.getD merged.config "version" = .ofText? a.version := by
  rw [h.config]
  exact Fields.getD_dropNulls (by simp [Fields.keys, App.toFields]) "version"

/-- Copies of a request that came of a merge go together, and it depends on
their apps what becomes of them. -/
theorem StandsFor.run_merge_copies {merged : Request σ} (h : StandsFor merged a)
    (hfits : n + 2 ≤ maxFunctions) (e : Desk σ) :
    (kind.provider.merge (List.replicate (n + 2) merged)).run e
      = (merge (List.replicate (n + 2) a)
          >>= model.conclude merged (List.replicate (n + 2) merged.toRequirement), e) := by
  have hone : model.Fits merged (List.replicate (n + 2) merged.toRequirement) := by
    refine ⟨?_, fun r hr => ?_⟩
    · rw [List.length_replicate]
      exact Int.ofNat_le.2 hfits
    · rw [List.eq_of_mem_replicate hr]
      exact h.same
  have hpairs : (List.replicate (n + 2) a).Pairwise fun b c => model.canMerge b c = true :=
    List.pairwise_replicate.2 (.inr h.settled.canMerge_self)
  rw [List.replicate_succ, List.replicate_succ]
  refine (Kind.run_mergeRequests model merged merged (List.replicate n merged) e).trans ?_
  rw [← List.replicate_succ, ← List.replicate_succ, List.map_replicate, Model.join_of_fits hone,
    Model.mergeGroup_of_pairwise (mapM_replicate_of_ok h.read _) hpairs]
  rfl

/-- The request that stands for copies of one is that request. -/
theorem StandsFor.conclude_copies {merged : Request σ} (h : StandsFor merged a)
    (hdistinct : merged.priority.Distinct) (n : Nat) :
    model.conclude merged (List.replicate (n + 1) merged.toRequirement) a = .ok merged := by
  have hpriority : merged.effectivePriority = merged.priority := by
    unfold Requirement.effectivePriority
    split
    · next hnull =>
        have horder := h.order
        rw [hnull] at horder
        cases horder
    · rfl
  refine Model.conclude_ok_iff.2 ⟨h.valid, h.type, h.key, merged.priority, ?_, ?_⟩
  · rw [List.map_replicate, hpriority]
    exact Value.greatest_copies hdistinct h.order n.succ_pos
  · have hconfig := h.config
    have hbare := h.bare
    obtain ⟨⟨type, key, config, priority, provenance⟩, validators⟩ := merged
    dsimp only at hconfig hbare
    rw [hconfig, hbare]
    rfl

/-- The version of a request is too long to be read as numbers. -/
def HasLongVersion (r : Request σ) : Prop :=
  ∃ version, Fields.getD r.config "version" = .str version ∧ TooLong version

/-- A request that stands for an app has a long version if the version of
the app cannot be read. -/
theorem StandsFor.hasLongVersion_iff {merged : Request σ} (h : StandsFor merged a) :
    HasLongVersion merged ↔ ∃ version, a.version = some version ∧ ¬ IsReadable version := by
  unfold HasLongVersion
  rw [h.version]
  cases hversion : a.version with
  | none => simp [Value.ofText?]
  | some v => simp [Value.ofText?, isReadable_iff h.valid hversion]

/-- A request that several became is stable: any number of its copies that an
app can serve become the request itself. Only if it has a version with a part
that is too long for a number, which no merge has read so far, the copies end
in a fault of a plain value. -/
theorem merged_request_is_stable {first second merged : Request σ} {rest : List (Request σ)}
    {d d' : Desk σ} (h : (kind.provider.merge (first :: second :: rest)).run d = (.ok merged, d'))
    (hdistinct : merged.priority.Distinct) {n : Nat} (hseveral : 2 ≤ n) (hfits : n ≤ maxFunctions)
    (e : Desk σ) :
    (¬ HasLongVersion merged →
      (kind.provider.merge (List.replicate n merged)).run e = (.ok merged, e))
    ∧ (HasLongVersion merged → ∃ text,
      (kind.provider.merge (List.replicate n merged)).run e = (.error (.badValue text), e)) := by
  obtain ⟨a, hstands⟩ := standsFor_of_merge h
  obtain ⟨n, rfl⟩ := Nat.exists_eq_add_of_le' hseveral
  rw [hstands.run_merge_copies hfits, hstands.hasLongVersion_iff]
  constructor
  · intro hshort
    have hreadable : ∀ v, a.version = some v → IsReadable v := by
      intro v hv
      by_contra hunreadable
      exact hshort ⟨v, hv, hunreadable⟩
    rw [merge_copies hstands.settled hreadable]
    exact congrArg (·, e) (hstands.conclude_copies hdistinct (n + 1))
  · rintro ⟨version, hversion, hunreadable⟩
    obtain ⟨text, htext⟩ := merge_copies_error hversion hunreadable n
    rw [htext]
    exact ⟨text, rfl⟩

/-- A request for an app with a configuration of its own. -/
def request (priority : Value) (config : Fields) : Request Unit :=
  ⟨⟨.str "functions", .str "api", ("runtime", .str "node") :: config
    ++ [("plan", .str "basic"), ("storage_account", .str "files")], priority, .absent⟩, []⟩

/-- What two components have become is stable: their variables are not told
apart once more. -/
theorem hosted_components_are_stable :
    let first := request .null [("version", .str "18.1"), ("environment_variables",
      .object [("KEY", .object [("value", .str "1"), ("component_id", .str "UserApi")])]),
      ("extensions", .texts ["files", "files"])]
    let second := request (.int 20) [("version", .str "18.2"), ("environment_variables",
      .object [("REGION", .str "west")])]
    let merged := request (.int 20) [("version", .str "18.2"), ("environment_variables",
      .object [("USER_API_KEY", .object [("value", .str "1")]),
        ("REGION", .object [("value", .str "west")])]), ("extensions", .texts ["files"])]
    (kind.provider.merge [first, second]).run ⟨(), []⟩ = (.ok merged, ⟨(), []⟩)
      ∧ (kind.provider.merge [merged, merged, merged]).run ⟨(), []⟩ = (.ok merged, ⟨(), []⟩) := by
  intro first second merged
  have hmerge : (kind.provider.merge [first, second]).run ⟨(), []⟩ = (.ok merged, ⟨(), []⟩) :=
    (Kind.run_mergeRequests model first second [] ⟨(), []⟩).trans rfl
  have hshort : ¬ HasLongVersion merged := by
    rintro ⟨version, hversion, hlong⟩
    cases hversion
    have hchars : "18.2".toList.length ≤ Written.mostDigits := by
      unfold Written.mostDigits
      simp
    exact not_tooLong_of_length hchars hlong
  have hfits : 3 ≤ maxFunctions := by
    unfold maxFunctions
    omega
  have hstable := merged_request_is_stable hmerge trivial (by decide) hfits ⟨(), []⟩
  exact ⟨hmerge, hstable.1 hshort⟩

-- ======================================================= long versions

/-- A version of ones. -/
def ones (n : Nat) : String := String.ofList (List.replicate n '1')

theorem cut_ones (n : Nat) : Text.cut '.' (ones n).toList = [List.replicate n '1'] := by
  unfold ones
  rw [String.toList_ofList]
  exact Text.cut_of_not_mem (by simp [List.mem_replicate])

/-- A version of ones has the form of one. -/
theorem isVersion_ones (n : Nat) : isVersion (ones (n + 1)).toList = true := by
  have hlast : (ones (n + 1)).toList.getLast? ≠ some '\n' := by
    intro hlast
    have hin := List.mem_of_getLast? hlast
    unfold ones at hin
    rw [String.toList_ofList] at hin
    exact absurd (List.eq_of_mem_replicate hin) (by decide)
  have hdecimal : Text.isDecimal '1' = true := by decide
  unfold isVersion
  dsimp only
  rw [if_neg hlast, cut_ones]
  simp [hdecimal]

/-- Enough ones make a version too long to read. -/
theorem tooLong_ones {n : Nat} (h : Written.mostDigits < n) : TooLong (ones n) := by
  refine ⟨List.replicate n '1', ?_, fun c hc => ?_, ?_⟩
  · rw [cut_ones]
    exact List.mem_singleton_self _
  · rw [List.eq_of_mem_replicate hc]
    decide
  · rw [List.length_replicate]
    exact h

/-- The app of a request for a version, and of one that leaves it open. -/
def versionedApp (version : Option String) : App :=
  { runtime := "node", version := version, plan := .str "basic", storageAccount := .str "files" }

/-- What a request for a version becomes with one that leaves it open. -/
theorem run_merge_versioned {version : String} (h : isVersion version.toList = true) :
    (kind.provider.merge [request .null [("version", .str version)], request .null []]).run ⟨(), []⟩
      = (.ok (request (.int 10) [("version", .str version),
          ("environment_variables", .object [])]), ⟨(), []⟩) := by
  have hvalid : (check { versionedApp version with environment := some [] }).valid = true := by
    by_cases hempty : version = ""
    · subst hempty
      rfl
    · simp [check, versionedApp, h, Verdict.ofTexts, Verdict.ofMessages, runtimes, Value.isTruthy]
  refine (Kind.run_mergeRequests model _ _ [] _).trans (congrArg (·, _) ?_)
  refine Model.join_ok_iff.2 ⟨⟨?_, ?_⟩, { versionedApp version with environment := some [] }, ?_, ?_⟩
  · show (2 : Int) ≤ 200
    omega
  · exact List.forall_mem_cons.2 ⟨rfl, List.forall_mem_singleton.2 rfl⟩
  · have hread : ([request .null [("version", .str version)], request .null []].map
        Request.toRequirement).mapM model.readForMerge
          = .ok [versionedApp version, versionedApp none] := rfl
    exact Model.mergeGroup_of_pairwise hread (List.pairwise_pair.2 rfl)
  · exact Model.conclude_ok_iff.2 ⟨hvalid, rfl, rfl, .int 10, rfl, rfl⟩

/-- A version with a part of more digits than a number may have passes the
check and the first merge, which has no other version to hold it against. Two
copies of what came of it cannot be merged. -/
theorem long_version_cannot_be_merged_again :
    let long := ones (Written.mostDigits + 1)
    let first := request .null [("version", .str long)]
    let second := request .null []
    ∃ merged text, (kind.provider.merge [first, second]).run ⟨(), []⟩ = (.ok merged, ⟨(), []⟩)
      ∧ (kind.provider.merge [merged, merged]).run ⟨(), []⟩
        = (.error (.badValue text), ⟨(), []⟩) := by
  intro long first second
  have hmerge := run_merge_versioned (isVersion_ones Written.mostDigits)
  obtain ⟨a, hstands⟩ := standsFor_of_merge hmerge
  obtain ⟨version, hversion, hunreadable⟩ :=
    hstands.hasLongVersion_iff.1 ⟨long, rfl, tooLong_ones (Nat.lt_succ_self _)⟩
  obtain ⟨text, htext⟩ := merge_copies_error hversion hunreadable 0
  have hfits : 0 + 2 ≤ maxFunctions := by
    unfold maxFunctions
    omega
  refine ⟨_, text, hmerge, (hstands.run_merge_copies hfits _).trans ?_⟩
  rw [htext]
  rfl

end Depot.Functions
