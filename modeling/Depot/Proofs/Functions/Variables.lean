/-
The environment variables of apps that become one. In the common app a
variable has the name that tells its owner, so different keys of different
owners may come to one name; two values for a name are a clash
(`Clash`).

The variables are put into a table one by one. As long as that goes well the
table holds all of them (`Holds`), each under its name and the names in the
order in which they first occurred. So a variable is refused just if an
earlier one has its name and another value, and because the table holds every
earlier variable, no clash goes unseen (`addVariables_cases`). Only a table of
all variables is counted: a clash is found before there can be too many.
-/
import Depot.Proofs.Table
import Depot.Proofs.Work
import Depot.Provider.Functions

namespace Depot.Functions

/-- The variables that apps have, one after the other. -/
def variablesOf (apps : List App) : List (String × Variable) :=
  apps.flatMap fun a => a.environment.getD []

/-- The name that a variable under its key has in a common app. -/
def nameOf (e : String × Variable) : String := settingName e.1 e.2

/-- The names of variables, in the order of their first occurrence. -/
def namesOf (vars : List (String × Variable)) : List String := (vars.map nameOf).eraseDups

/-- Two variables have one name and different values. -/
def Clash (vars : List (String × Variable)) : Prop :=
  ∃ x ∈ vars, ∃ y ∈ vars, nameOf x = nameOf y ∧ x.2.value ≠ y.2.value

-- ============================================================== faults

/-- The fault of a name with two values. -/
def conflict (name current new : String) : Fault :=
  let values := s!"'{current}' vs '{new}'"
  .incompatibleConfigs (.str "functions")
    (.str s!"environment variable conflict for '{name}': {values}")

/-- The fault of an app with too many variables. -/
def overfull (count : Nat) : Fault :=
  .limitExceeded (.str "functions") (.int maxVariables) (.int count)

@[simp] theorem kind?_conflict (name current new : String) :
    (conflict name current new).kind? = some .merge := rfl

@[simp] theorem kind?_overfull (count : Nat) : (overfull count).kind? = some .resourceLimit := rfl

-- ======================================================== one variable

variable {vars : List (String × Variable)} {e : String × Variable} {t t' : Variables}

/-- A variable that is added is new, or the same value as before. -/
theorem addVariable_ok (h : addVariable t e = .ok t') :
    t' = Table.put (nameOf e) ⟨e.2.value, none⟩ t
      ∧ ∀ current, t.lookup (nameOf e) = some current → current.value = e.2.value := by
  unfold addVariable at h
  dsimp only at h
  split at h
  · next current hcurrent =>
      split at h
      · cases h
      · next hsame =>
          cases h
          refine ⟨rfl, fun other hother => ?_⟩
          cases hcurrent.symm.trans hother
          exact not_not.1 hsame
  · next hnew =>
      cases h
      exact ⟨rfl, fun current hcurrent => by cases hnew.symm.trans hcurrent⟩

/-- A variable is refused only for a different value under its name. -/
theorem addVariable_error {fault : Fault} (h : addVariable t e = .error fault) :
    ∃ current, t.lookup (nameOf e) = some current ∧ current.value ≠ e.2.value
      ∧ fault = conflict (nameOf e) current.value e.2.value := by
  unfold addVariable at h
  dsimp only at h
  split at h
  · next current hcurrent =>
      split at h
      · next hother =>
          cases h
          exact ⟨current, hcurrent, hother, rfl⟩
      · cases h
  · cases h

-- ======================================================= all variables

/-- A table holds variables: each under its name, with its value and without
an owner, and nothing else. -/
structure Holds (vars : List (String × Variable)) (t : Variables) : Prop where
  names : t.keys = namesOf vars
  values : ∀ e ∈ vars, t.lookup (nameOf e) = some ⟨e.2.value, none⟩

theorem Holds.not_clash (h : Holds vars t) : ¬ Clash vars := by
  rintro ⟨x, hx, y, hy, hname, hvalues⟩
  have hboth := (h.values x hx).symm.trans (hname ▸ h.values y hy)
  injection hboth with hboth
  injection hboth with hsame
  exact hvalues hsame

/-- What a held name leads to is one of the variables. -/
theorem Holds.exists_of_lookup (h : Holds vars t) {name : String} {v : Variable}
    (hlookup : t.lookup name = some v) : ∃ x ∈ vars, nameOf x = name ∧ v = ⟨x.2.value, none⟩ := by
  have hin : name ∈ t.keys := Table.has_iff.1 (Option.isSome_of_eq_some hlookup)
  rw [h.names, namesOf, List.mem_eraseDups] at hin
  obtain ⟨x, hx, rfl⟩ := List.mem_map.1 hin
  have hboth := hlookup.symm.trans (h.values x hx)
  exact ⟨x, hx, rfl, Option.some.inj hboth⟩

/-- One more variable that is added is held as well. -/
theorem Holds.add (h : Holds vars t) (hok : addVariable t e = .ok t') : Holds (vars ++ [e]) t' := by
  obtain ⟨rfl, hagrees⟩ := addVariable_ok hok
  constructor
  · rw [Table.keys_put, h.names, namesOf, namesOf, List.map_append, List.map_singleton,
      eraseDups_concat]
    exact if_congr List.mem_eraseDups rfl rfl
  · intro x hx
    rw [Table.lookup_put]
    rcases List.mem_append.1 hx with hold | hnew
    · by_cases hname : nameOf x = nameOf e
      · -- the name is set again, to the value that it had
        have hvalue := hagrees _ (hname ▸ h.values x hold)
        rw [if_pos hname, ← hvalue]
      · rw [if_neg hname, h.values x hold]
    · rw [List.mem_singleton.1 hnew, if_pos rfl]

/-- A variable that is refused clashes with one that is held. -/
theorem Holds.clash (h : Holds vars t) {fault : Fault} (hfails : addVariable t e = .error fault) :
    ∃ x ∈ vars, nameOf x = nameOf e ∧ x.2.value ≠ e.2.value
      ∧ fault = conflict (nameOf e) x.2.value e.2.value := by
  obtain ⟨current, hcurrent, hvalues, hfault⟩ := addVariable_error hfails
  obtain ⟨x, hx, hname, rfl⟩ := h.exists_of_lookup hcurrent
  exact ⟨x, hx, hname, hvalues, hfault⟩

/-- A run ends with a table of all variables, or with two that clash. -/
theorem addVariables_cases (vars : List (String × Variable)) :
    (∃ t, vars.foldlM addVariable [] = .ok t ∧ Holds vars t)
      ∨ ∃ x ∈ vars, ∃ y ∈ vars, nameOf x = nameOf y ∧ x.2.value ≠ y.2.value
        ∧ vars.foldlM addVariable [] = .error (conflict (nameOf y) x.2.value y.2.value) := by
  induction vars using List.reverseRecOn with
  | nil => exact .inl ⟨[], rfl, ⟨rfl, by simp⟩⟩
  | append_singleton vars e ih =>
      rw [List.foldlM_append]
      rcases ih with ⟨t, hrun, hholds⟩ | ⟨x, hx, y, hy, hname, hvalues, hrun⟩
      · rw [hrun]
        show (∃ t', [e].foldlM addVariable t = .ok t' ∧ _) ∨ ∃ x ∈ _, ∃ y ∈ _, _ ∧ _ ∧
          [e].foldlM addVariable t = _
        rw [List.foldlM_cons]
        cases hadd : addVariable t e with
        | ok t' => exact .inl ⟨t', rfl, hholds.add hadd⟩
        | error fault =>
            obtain ⟨x, hx, hname, hvalues, hfault⟩ := hholds.clash hadd
            exact .inr ⟨x, List.mem_append_left [e] hx, e, by simp, hname, hvalues,
              congrArg Except.error hfault⟩
      · rw [hrun]
        exact .inr ⟨x, List.mem_append_left [e] hx, y, List.mem_append_left [e] hy, hname, hvalues,
          rfl⟩

-- ============================================================== merging

/-- Variables are added one after the other, and then counted. -/
theorem mergeVariables_eq (apps : List App) :
    mergeVariables apps
      = (variablesOf apps).foldlM addVariable [] >>= fun merged =>
        if maxVariables < merged.length then .error (overfull merged.length) else .ok merged := rfl

/-- A table has one entry for each name. -/
theorem Holds.length_eq (h : Holds vars t) : t.length = (namesOf vars).length := by
  rw [← h.names, Table.keys, List.length_map]

/-- The ways in which the variables of apps can come together. -/
theorem mergeVariables_cases (apps : List App) :
    (∃ x ∈ variablesOf apps, ∃ y ∈ variablesOf apps, nameOf x = nameOf y ∧ x.2.value ≠ y.2.value
      ∧ mergeVariables apps = .error (conflict (nameOf y) x.2.value y.2.value))
    ∨ (¬ Clash (variablesOf apps) ∧ maxVariables < (namesOf (variablesOf apps)).length
      ∧ mergeVariables apps = .error (overfull (namesOf (variablesOf apps)).length))
    ∨ ¬ Clash (variablesOf apps) ∧ (namesOf (variablesOf apps)).length ≤ maxVariables
      ∧ ∃ merged, mergeVariables apps = .ok merged ∧ Holds (variablesOf apps) merged := by
  rw [mergeVariables_eq]
  rcases addVariables_cases (variablesOf apps) with
    ⟨t, hrun, hholds⟩ | ⟨x, hx, y, hy, hname, hvalues, hrun⟩
  · rw [hrun, ← hholds.length_eq]
    refine .inr ?_
    by_cases hfull : maxVariables < t.length
    · exact .inl ⟨hholds.not_clash, hfull, if_pos hfull⟩
    · exact .inr ⟨hholds.not_clash, Nat.not_lt.1 hfull, t, if_neg hfull, hholds⟩
  · rw [hrun]
    exact .inl ⟨x, hx, y, hy, hname, hvalues, rfl⟩

/-- A clash anywhere is a merge fault. Without one, too many names are a
limit fault. Otherwise there is a table of the names, in the order of their
first occurrence, each with its value and no owner. -/
theorem variables_come_together (apps : List App) :
    let vars := variablesOf apps
    ((∃ fault, mergeVariables apps = .error fault ∧ fault.kind? = some .merge) ↔ Clash vars)
    ∧ ((∃ fault, mergeVariables apps = .error fault ∧ fault.kind? = some .resourceLimit)
      ↔ ¬ Clash vars ∧ maxVariables < (namesOf vars).length)
    ∧ ((∃ merged, mergeVariables apps = .ok merged ∧ merged.keys = namesOf vars
        ∧ ∀ e ∈ vars, merged.lookup (nameOf e) = some ⟨e.2.value, none⟩)
      ↔ ¬ Clash vars ∧ (namesOf vars).length ≤ maxVariables) := by
  intro vars
  rcases mergeVariables_cases apps with
    ⟨x, hx, y, hy, hname, hvalues, hmerge⟩ | ⟨hnone, hfull, hmerge⟩
      | ⟨hnone, hfits, merged, hmerge, hholds⟩
  · have hclash : Clash vars := ⟨x, hx, y, hy, hname, hvalues⟩
    simp [hmerge, hclash]
  · have hover : ¬ (namesOf vars).length ≤ maxVariables := Nat.not_le.2 hfull
    simp [hmerge, vars, hnone, hfull, hover]
  · have hunder : ¬ maxVariables < (namesOf vars).length := Nat.not_lt.2 hfits
    refine ⟨?_, ?_, iff_of_true ⟨merged, hmerge, hholds.names, hholds.values⟩ ⟨hnone, hfits⟩⟩
    · simp [hmerge, vars, hnone]
    · simp [hmerge, hunder]

/-- A clash of variables under different keys. -/
example :
    let vars : List (String × Variable) :=
      [("table", ⟨"users", some "UserApi"⟩), ("USER_API_TABLE", ⟨"orders", some "shared"⟩)]
    namesOf vars = ["USER_API_TABLE"]
      ∧ mergeVariables [{ runtime := "node", environment := some vars }]
        = .error (conflict "USER_API_TABLE" "users" "orders") := ⟨rfl, rfl⟩

end Depot.Functions
