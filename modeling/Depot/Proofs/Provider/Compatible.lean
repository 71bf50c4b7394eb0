/-
Which configurations can be one resource. A group is held against itself pair
by pair, each configuration against those after it. That leaves out half of
the pairs, and nothing is lost by it if it makes no difference which of two
configurations is held against the other: then all pairs are as good as
those, and the order of the group does not matter (`unordered_of_back`).

Cosmos and storage accounts are held against each other alike from both
sides. With apps it depends on their variables, because the app that comes
first is made a table: of two values that it has for one name, the table
knows the last. What both sides accept has to agree in every variable
(`canMerge_both_iff`), but one side alone accepts more. It is only the same if
the first app has one value for each name that the second has, too
(`canMerge_back_iff`). An app with two values for a name can be one with an
app that has the last of them, and the other way round it cannot
(`only_last_value_is_held_against_others`).
-/
import Depot.Proofs.Functions.Variables
import Depot.Proofs.Provider.Group
import Depot.Provider.Cosmos
import Depot.Provider.Storage

namespace Depot

-- ================================================== one side and the other

namespace Model

variable {C : Type}

/-- Whether configurations go together does not depend on their order, as far
as they are settled among each other. Then two of them are held against each
other alike from both sides, a group is without a clash if every two of them
go together, and so is it in any other order. What goes together from one side
does so from the other just if it is settled. -/
structure Unordered (m : Model C) (Settles : C → C → Prop) : Prop where
  back : ∀ c d, m.canMerge c d = true → (m.canMerge d c = true ↔ Settles c d)
  comm : ∀ c d, Settles c d → Settles d c → m.canMerge c d = m.canMerge d c
  pairs : ∀ configs : List C, (∀ c ∈ configs, ∀ d ∈ configs, Settles c d) →
    (firstClash? m.canMerge configs.zipIdx = none
      ↔ ∀ i j (hi : i < configs.length) (hj : j < configs.length), i ≠ j →
        m.canMerge configs[i] configs[j] = true)
  order : ∀ configs configs' : List C, (∀ c ∈ configs, ∀ d ∈ configs, Settles c d) →
    configs.Perm configs' →
    (firstClash? m.canMerge configs.zipIdx = none
      ↔ firstClash? m.canMerge configs'.zipIdx = none)

/-- It is enough to know when the way back is open. -/
theorem unordered_of_back {m : Model C} {Settles : C → C → Prop}
    (back : ∀ c d, m.canMerge c d = true → (m.canMerge d c = true ↔ Settles c d)) :
    m.Unordered Settles := by
  refine ⟨back, fun c d hcd hdc => ?_, fun configs hsettled => ?_,
    fun configs configs' hsettled hperm => ?_⟩
  · rw [Bool.eq_iff_iff]
    exact ⟨fun h => (back c d h).2 hcd, fun h => (back d c h).2 hdc⟩
  · rw [firstClash?_eq_none_iff, List.pairwise_iff_getElem]
    constructor
    · intro h i j hi hj hne
      rcases Nat.lt_or_gt_of_ne hne with hbefore | hafter
      · exact h i j hi hj hbefore
      · have hother := h j i hj hi hafter
        exact (back _ _ hother).2 (hsettled _ (List.getElem_mem hj) _ (List.getElem_mem hi))
    · intro h i j hi hj hbefore
      exact h i j hi hj (Nat.ne_of_lt hbefore)
  · -- a permutation keeps a relation that is symmetric, and so both ways are told at once
    have hboth : ∀ group : List C, (∀ c ∈ group, ∀ d ∈ group, Settles c d) →
        (firstClash? m.canMerge group.zipIdx = none
          ↔ group.Pairwise fun c d => m.canMerge c d = true ∧ m.canMerge d c = true) := by
      intro group hgroup
      rw [firstClash?_eq_none_iff]
      refine List.Pairwise.iff_of_mem fun hc hd => ?_
      exact ⟨fun h => ⟨h, (back _ _ h).2 (hgroup _ hc _ hd)⟩, And.left⟩
    have hsettled' : ∀ c ∈ configs', ∀ d ∈ configs', Settles c d := fun c hc d hd =>
      hsettled c (hperm.symm.subset hc) d (hperm.symm.subset hd)
    rw [hboth configs hsettled, hboth configs' hsettled']
    exact hperm.pairwise_iff And.symm

end Model

-- ================================================================ accounts

namespace Cosmos

/-- Settings differ in both directions. -/
theorem differs_comm {α : Type} [DecidableEq α] (x y : Option α) :
    differs x y = differs y x := by
  cases x with
  | none => cases y <;> rfl
  | some a =>
      cases y with
      | none => rfl
      | some b => exact decide_eq_decide.2 ne_comm

/-- Accounts for documents can be merged in both directions. -/
theorem canMerge_comm (a b : Account) : canMerge a b = canMerge b a := by
  have hserverless : decide (a.serverless = b.serverless) = decide (b.serverless = a.serverless) :=
    decide_eq_decide.2 eq_comm
  unfold canMerge
  rw [differs_comm a.consistency, differs_comm a.kind, differs_comm a.multiRegion, hserverless]

end Cosmos

namespace Storage

/-- Accounts for files can be merged if no container has a name in both. -/
theorem canMerge_iff (a b : Account) :
    canMerge a b = true ↔ (fullNames a).Disjoint (fullNames b) := by
  simp [canMerge, List.Disjoint]

/-- Accounts for files can be merged in both directions. -/
theorem canMerge_comm (a b : Account) : canMerge a b = canMerge b a := by
  rw [Bool.eq_iff_iff, canMerge_iff, canMerge_iff]
  exact List.disjoint_comm

end Storage

-- ==================================================================== apps

namespace Functions

variable {a b : App}

/-- The variables of an app. -/
def App.listed (a : App) : Variables := a.environment.getD []

/-- Two apps have the same value for each name that both have. -/
def Agree (a b : App) : Prop :=
  ∀ x ∈ a.listed, ∀ y ∈ b.listed, nameOf x = nameOf y → x.2.value = y.2.value

/-- An app has one value for each name that it shares with another one. -/
def Settles (a b : App) : Prop :=
  ∀ x ∈ a.listed, ∀ x' ∈ a.listed, nameOf x = nameOf x' →
    (∃ y ∈ b.listed, nameOf y = nameOf x) → x.2.value = x'.2.value

theorem settles_of_not_clash (h : ¬ Clash a.listed) (b : App) : Settles a b := by
  intro x hx x' hx' hname _
  by_contra hvalues
  exact h ⟨x, hx, x', hx', hname, hvalues⟩

/-- Versions are of one major version in both directions. -/
theorem sameMajor_comm (v w : Option String) : sameMajor v w = sameMajor w v := by
  cases v with
  | none => cases w <;> rfl
  | some v =>
      cases w with
      | none => rfl
      | some w =>
          rw [Bool.eq_iff_iff]
          simp only [sameMajor, Bool.or_eq_true, decide_eq_true_eq]
          rw [or_comm (a := v = ""), eq_comm (a := v) (b := w), eq_comm (a := List.head? _)]

/-- The last value that an app has for a name. -/
def lastValue? (a : App) (name : String) : Option String :=
  (Table.ofEntries (namedVariables a)).lookup name

/-- The variables of an app stand under their names. -/
theorem mem_namedVariables {name value : String} :
    (name, value) ∈ namedVariables a ↔ ∃ x ∈ a.listed, nameOf x = name ∧ x.2.value = value := by
  unfold namedVariables
  rw [List.mem_map]
  constructor
  · rintro ⟨x, hx, hboth⟩
    cases hboth
    exact ⟨x, hx, rfl, rfl⟩
  · rintro ⟨x, hx, rfl, rfl⟩
    exact ⟨x, hx, rfl⟩

theorem exists_of_lastValue? {name value : String} (h : lastValue? a name = some value) :
    ∃ x ∈ a.listed, nameOf x = name ∧ x.2.value = value :=
  mem_namedVariables.1 (Table.mem_of_lookup_ofEntries h)

theorem exists_lastValue? {x : String × Variable} (hx : x ∈ a.listed) :
    ∃ value, lastValue? a (nameOf x) = some value :=
  Table.exists_lookup_ofEntries (mem_namedVariables.2 ⟨x, hx, rfl, rfl⟩)

/-- One app is held against the last values of the other. -/
theorem canMerge_iff :
    canMerge a b = true ↔ a.runtime = b.runtime ∧ sameMajor a.version b.version = true
      ∧ ∀ y ∈ b.listed, ∀ value, lastValue? a (nameOf y) = some value → value = y.2.value := by
  unfold canMerge
  dsimp only
  rw [Bool.and_eq_true, Bool.and_eq_true, decide_eq_true_eq, List.all_eq_true, and_assoc]
  refine and_congr_right fun _ => and_congr_right fun _ => ?_
  constructor
  · intro h y hy value hlast
    have hone := h _ (mem_namedVariables.2 ⟨y, hy, rfl, rfl⟩)
    unfold lastValue? at hlast
    dsimp only at hone
    rw [hlast] at hone
    exact of_decide_eq_true hone
  · rintro h ⟨name, value⟩ hin
    obtain ⟨y, hy, rfl, rfl⟩ := mem_namedVariables.1 hin
    dsimp only
    split
    · next current hcurrent => exact decide_eq_true (h y hy current hcurrent)
    · rfl

/-- Two apps can be one from both sides if they have one runtime and one major
version and agree in their variables. -/
theorem canMerge_both_iff :
    canMerge a b = true ∧ canMerge b a = true
      ↔ a.runtime = b.runtime ∧ sameMajor a.version b.version = true ∧ Agree a b := by
  rw [canMerge_iff, canMerge_iff]
  constructor
  · rintro ⟨⟨hruntime, hmajor, hab⟩, -, -, hba⟩
    refine ⟨hruntime, hmajor, fun x hx y hy hname => ?_⟩
    -- the value in between is the last one that the first app has for the name
    obtain ⟨last, hlast⟩ := exists_lastValue? hx
    obtain ⟨z, hz, hsame, rfl⟩ := exists_of_lastValue? hlast
    obtain ⟨last', hlast'⟩ := exists_lastValue? hy
    have hx' : last' = x.2.value := hba x hx last' (hname ▸ hlast')
    have hz' : last' = z.2.value := hba z hz last' (by rw [hsame, hname, hlast'])
    exact hx'.symm.trans (hz'.trans (hab y hy _ (hname ▸ hlast)))
  · rintro ⟨hruntime, hmajor, hagree⟩
    refine ⟨⟨hruntime, hmajor, fun y hy value hlast => ?_⟩, hruntime.symm,
      sameMajor_comm _ _ ▸ hmajor, fun x hx value hlast => ?_⟩
    · obtain ⟨x, hx, hname, rfl⟩ := exists_of_lastValue? hlast
      exact hagree x hx y hy hname
    · obtain ⟨y, hy, hname, rfl⟩ := exists_of_lastValue? hlast
      exact (hagree x hx y hy hname.symm).symm

/-- The way back is open, too, if the first app has one value for each name
that both have. -/
theorem canMerge_back_iff (h : canMerge a b = true) : canMerge b a = true ↔ Settles a b := by
  obtain ⟨hruntime, hmajor, hab⟩ := canMerge_iff.1 h
  constructor
  · intro hback
    obtain ⟨-, -, hagree⟩ := canMerge_both_iff.1 ⟨h, hback⟩
    rintro x hx x' hx' hname ⟨y, hy, hshared⟩
    exact (hagree x hx y hy hshared.symm).trans
      (hagree x' hx' y hy (hname.symm.trans hshared.symm)).symm
  · intro hsettles
    refine (canMerge_both_iff.2 ⟨hruntime, hmajor, fun x hx y hy hname => ?_⟩).2
    obtain ⟨last, hlast⟩ := exists_lastValue? hx
    obtain ⟨z, hz, hsame, rfl⟩ := exists_of_lastValue? hlast
    exact (hsettles x hx z hz hsame.symm ⟨y, hy, hname.symm⟩).trans (hab y hy _ (hname ▸ hlast))

end Functions

-- =============================================================== all kinds

/-- When configurations of the built-in providers are settled: accounts always
are, and an app is if it has one value for each name that it shares. -/
inductive Model.Settling : {C : Type} → Model C → (C → C → Prop) → Prop
  | cosmos : Settling Cosmos.model fun _ _ => True
  | storage : Settling Storage.model fun _ _ => True
  | functions : Settling Functions.model Functions.Settles

/-- Which accounts can be one does not depend on their order, and neither does
it with apps that have one value for each name. Two apps are held against each
other alike from both sides unless one of them has two values for a name that
the other has, too. -/
theorem compatibility_is_unordered {C : Type} {m : Model C} {Settles : C → C → Prop}
    (h : m.Settling Settles) : m.Unordered Settles := by
  refine Model.unordered_of_back ?_
  cases h with
  | cosmos => exact fun a b h => iff_of_true ((Cosmos.canMerge_comm b a).trans h) trivial
  | storage => exact fun a b h => iff_of_true ((Storage.canMerge_comm b a).trans h) trivial
  | functions => exact fun a b h => Functions.canMerge_back_iff h

namespace Functions

/-- Apps of three components. Two of them share a variable, and the third has
it under the name that it gets. -/
def sharingApps : List App :=
  [{ runtime := "node", version := some "18.1",
      environment := some [("KEY", ⟨"1", some "UserApi"⟩), ("REGION", ⟨"west", some "shared"⟩)] },
    { runtime := "node", environment := some [("REGION", ⟨"west", none⟩)] },
    { runtime := "node", version := some "18.2", environment := some [("USER_API_KEY", ⟨"1", none⟩)] }]

/-- They go together in the other order as well. -/
theorem sharing_apps_go_together :
    Model.firstClash? canMerge sharingApps.zipIdx = none
      ∧ Model.firstClash? canMerge sharingApps.reverse.zipIdx = none := by
  have hone : ∀ a ∈ sharingApps, ¬ Clash a.listed := by
    unfold Clash
    decide
  have hsettled : ∀ a ∈ sharingApps, ∀ b ∈ sharingApps, Settles a b := fun a ha b _ =>
    settles_of_not_clash (hone a ha) b
  have htogether : Model.firstClash? canMerge sharingApps.zipIdx = none := rfl
  have hunordered : model.Unordered Settles := compatibility_is_unordered .functions
  exact ⟨htogether, (hunordered.order _ _ hsettled sharingApps.reverse_perm.symm).1 htogether⟩

/-- An app with two values for one name. -/
def doubledApp : App :=
  { runtime := "node",
    environment := some [("KEY", ⟨"1", some "UserApi"⟩), ("key", ⟨"2", some "UserApi"⟩)] }

/-- An app with the second of these values. -/
def plainApp : App := { runtime := "node", environment := some [("USER_API_KEY", ⟨"2", none⟩)] }

/-- Held against the other, the app is known for its last value alone, and the
group is without a clash; the other way round it is not. Neither order can be
merged. -/
theorem only_last_value_is_held_against_others :
    (∀ a ∈ [doubledApp, plainApp], model.read (.ofFields (model.write a)) = .ok a)
      ∧ canMerge doubledApp plainApp = true ∧ canMerge plainApp doubledApp = false
      ∧ Model.firstClash? canMerge [doubledApp, plainApp].zipIdx = none
      ∧ Model.firstClash? canMerge [plainApp, doubledApp].zipIdx = some (0, 1)
      ∧ merge [doubledApp, plainApp] = .error (conflict "USER_API_KEY" "1" "2")
      ∧ merge [plainApp, doubledApp] = .error (conflict "USER_API_KEY" "2" "1") := by
  refine ⟨?_, rfl, rfl, rfl, rfl, rfl, rfl⟩
  exact List.forall_mem_cons.2 ⟨rfl, List.forall_mem_singleton.2 rfl⟩

end Functions

end Depot
