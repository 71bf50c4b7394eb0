/-
How far names tell resources apart. A resource is named by its type, the
backend and its key, joined by a separator and in small letters; two keys
of one backend that differ by case alone would get one name, and these the
backend refuses. That is not all that can meet in a name. A separator may
stand in a type and in a key, and then one name is cut in two ways
(`separator_joins_names`); and a capital sigma is lowered by what stands
around it, which is another thing in a name than in a key.

Among types and keys without a capital sigma, of which no type with the
separator after it begins another one, names are as good as keys: what
passes the check has different names for different keys
(`names_are_told_apart`). The beginning of all names and the backend may be
any text.
-/
import Depot.Naming
import Depot.Proofs.Backend.Collecting
import Depot.Proofs.Text.Case
import Depot.Proofs.Value.Sequence

namespace Depot

namespace Naming

-- =============================================================== parts

/-- A part of a name, if it is given. -/
def given (s : String) : List String := if s = "" then [] else [s]

/-- A part of a name with the separator that follows it, if it is given. -/
def followed (separator s : String) : String := if s = "" then "" else s ++ separator

/-- Of one text those that count are the part it gives. -/
theorem filter_given (s : String) : [Value.str s].filter Value.isTruthy = (given s).map .str := by
  unfold given
  by_cases h : s = ""
  · rw [if_pos h, h]
    rfl
  · have htrue : (Value.str s).isTruthy = true := decide_eq_true h
    rw [if_neg h, List.filter_singleton, htrue]
    rfl

/-- A part before others is followed by the separator, if it is given. -/
theorem intercalate_given (separator s : String) {rest : List String} (h : rest ≠ []) :
    separator.intercalate (given s ++ rest)
      = followed separator s ++ separator.intercalate rest := by
  unfold given followed
  by_cases hs : s = ""
  · rw [if_pos hs, if_pos hs, String.empty_append]
    rfl
  · obtain ⟨t, more, rfl⟩ := List.exists_cons_of_ne_nil h
    rw [if_neg hs, if_neg hs]
    exact String.intercalate_cons_cons

/-- The convention with a beginning that may be missing. -/
def ofTexts (lead : Option String) (separator : String) : Naming :=
  ⟨Value.ofText? lead, .str separator⟩

/-- The name of a resource whose type and key are given texts. -/
theorem resourceName_texts (lead : Option String) (separator id : String) {t k : String}
    (ht : t ≠ "") (hk : k ≠ "") :
    (ofTexts lead separator).resourceName (.str t) (.str id) (.str k)
      = .ok (lowerCase (followed separator (lead.getD "")
          ++ ((t ++ separator) ++ (followed separator id ++ k)))) := by
  have hlead : [(ofTexts lead separator).lead].filter Value.isTruthy
      = (given (lead.getD "")).map .str := by
    cases lead with
    | none => rfl
    | some s => exact filter_given s
  have hkey : given k = [k] := if_neg hk
  have htype : followed separator t = t ++ separator := if_neg ht
  have htext : separator.intercalate
        (given (lead.getD "") ++ (given t ++ (given id ++ given k)))
      = followed separator (lead.getD "")
          ++ ((t ++ separator) ++ (followed separator id ++ k)) := by
    rw [hkey, intercalate_given _ _ (by simp), intercalate_given _ _ (by simp),
      intercalate_given _ _ (by simp), htype, String.intercalate_singleton]
  have hparts : [(ofTexts lead separator).lead, .str t, .str id, .str k].filter Value.isTruthy
      = (given (lead.getD "") ++ (given t ++ (given id ++ given k))).map .str := by
    rw [List.map_append, List.map_append, List.map_append, ← hlead, ← filter_given,
      ← filter_given, ← filter_given, ← List.filter_append, ← List.filter_append,
      ← List.filter_append]
    rfl
  unfold resourceName join
  rw [hparts]
  show (do return lowerCase (← Value.joinTexts separator _) : Except Fault String) = _
  rw [Value.joinTexts_texts, htext]
  rfl

-- =============================================================== names

/-- The requirement names its resource by a type and a key that are texts
without a capital sigma. -/
structure Plain (r : Requirement) (t k : String) : Prop where
  type : r.type = .str t
  key : r.key = .str k
  type_ne : t ≠ ""
  key_ne : k ≠ ""
  type_plain : 'Σ' ∉ t.toList
  key_plain : 'Σ' ∉ k.toList

/-- The resource key of plain texts has a colon between them. -/
theorem Plain.resourceKey {r : Requirement} {t k : String} (h : Plain r t k) :
    r.resourceKey.toList = t.toList ++ ':' :: k.toList := by
  have hkey : r.resourceKey = t ++ ":" ++ k := by
    unfold Requirement.resourceKey
    rw [h.type, h.key]
    rfl
  rw [hkey, String.toList_append, String.toList_append, List.append_assoc]
  rfl

theorem lowerCase_inj {s s' : String} :
    lowerCase s = lowerCase s' ↔ Text.lower s.toList = Text.lower s'.toList := by
  unfold lowerCase
  rw [← String.toList_inj, String.toList_ofList, String.toList_ofList]

theorem toList_lowerCase_append (t separator : String) :
    (lowerCase ((Value.str t).label ++ separator)).toList
      = Text.lower (t.toList ++ separator.toList) := by
  unfold lowerCase
  rw [String.toList_ofList, String.toList_append]
  rfl

/-- Keys whose parts have one small form each have one small form. -/
theorem Plain.lowerCase_resourceKey {r r' : Requirement} {t t' k k' : String} (h : Plain r t k)
    (h' : Plain r' t' k') (htype : lowerCase t = lowerCase t') (hkey : lowerCase k = lowerCase k') :
    lowerCase r.resourceKey = lowerCase r'.resourceKey := by
  have hparts : ∀ {r : Requirement} {t k : String}, Plain r t k →
      Text.lower r.resourceKey.toList
        = Text.lower t.toList ++ (Text.lowerOne ':' ++ Text.lower k.toList) := by
    intro r t k h
    have hback : 'Σ' ∉ [':'] ++ k.toList := by simp [h.key_plain]
    rw [h.resourceKey, ← List.singleton_append, Text.lower_append h.type_plain hback,
      Text.lower_append (by decide) h.key_plain]
    rfl
  rw [lowerCase_inj] at htype hkey ⊢
  rw [hparts h, hparts h', htype, hkey]

/-- Among requirements that pass the check for collisions, of which no type
with the separator after it begins another type, different keys get
different names. -/
theorem names_are_told_apart {lead : Option String} {separator id : String}
    {rs : List Requirement} (hseparator : 'Σ' ∉ separator.toList)
    (hplain : ∀ r ∈ rs, ∃ t k, Plain r t k)
    (hapart : ∀ r ∈ rs, ∀ q ∈ rs, lowerCase r.type.label ≠ lowerCase q.type.label →
      ¬ (lowerCase (r.type.label ++ separator)).toList
        <+: (lowerCase (q.type.label ++ separator)).toList)
    (hchecked : Backend.checkCollisions rs = .ok ()) :
    ∀ r ∈ rs, ∀ q ∈ rs, r.resourceKey ≠ q.resourceKey → ∃ name name',
      (ofTexts lead separator).resourceName r.type (.str id) r.key = .ok name
      ∧ (ofTexts lead separator).resourceName q.type (.str id) q.key = .ok name'
      ∧ name ≠ name' := by
  intro r hr q hq hne
  obtain ⟨t, k, h⟩ := hplain r hr
  obtain ⟨t', k', h'⟩ := hplain q hq
  refine ⟨_, _, by rw [h.type, h.key]; exact resourceName_texts _ _ _ h.type_ne h.key_ne,
    by rw [h'.type, h'.key]; exact resourceName_texts _ _ _ h'.type_ne h'.key_ne, ?_⟩
  intro hsame
  rw [lowerCase_inj] at hsame
  have hnames : Text.lower ((followed separator (lead.getD "")).toList
        ++ ((t.toList ++ separator.toList) ++ ((followed separator id).toList ++ k.toList)))
      = Text.lower ((followed separator (lead.getD "")).toList
        ++ ((t'.toList ++ separator.toList) ++ ((followed separator id).toList ++ k'.toList))) := by
    simpa only [String.toList_append] using hsame
  obtain ⟨hbegins, hkeys⟩ := Text.lower_around (by simp [h.type_plain, hseparator])
    (by simp [h'.type_plain, hseparator]) h.key_plain h'.key_plain hnames
  have htypes : lowerCase t = lowerCase t' := by
    by_contra hdiffer
    rcases hbegins with hbegins | hbegins
    · refine hapart r hr q hq (by rwa [h.type, h'.type]) ?_
      rwa [h.type, h'.type, toList_lowerCase_append, toList_lowerCase_append]
    · refine hapart q hq r hr (by rw [h.type, h'.type]; exact Ne.symm hdiffer) ?_
      rwa [h.type, h'.type, toList_lowerCase_append, toList_lowerCase_append]
  have hfirst : Text.lower (t.toList ++ separator.toList)
      = Text.lower (t'.toList ++ separator.toList) := by
    rw [Text.lower_append h.type_plain hseparator, Text.lower_append h'.type_plain hseparator,
      lowerCase_inj.1 htypes]
  have hfold : lowerCase r.resourceKey = lowerCase q.resourceKey :=
    h.lowerCase_resourceKey h' htypes (lowerCase_inj.2 (hkeys hfirst))
  exact hne (Backend.checkCollisions_ok_iff.1 hchecked r hr q hq hfold)

/-- Two queues and a table. -/
def storedThings : List Requirement :=
  [⟨.str "queue", .str "jobs", [], .null, .absent⟩, ⟨.str "queue", .str "Mail", [], .null, .absent⟩,
    ⟨.str "table", .str "jobs", [], .null, .absent⟩]

/-- Two stored things keep different names. -/
theorem stored_things_have_their_names :
    Backend.checkCollisions storedThings = .ok ()
    ∧ ∀ r ∈ storedThings, ∀ q ∈ storedThings, r.resourceKey ≠ q.resourceKey → ∃ name name',
      (ofTexts (some "Prod") "-").resourceName r.type (.str "App") r.key = .ok name
      ∧ (ofTexts (some "Prod") "-").resourceName q.type (.str "App") q.key = .ok name'
      ∧ name ≠ name' := by
  have hchecked : Backend.checkCollisions storedThings = .ok () := rfl
  refine ⟨hchecked, names_are_told_apart (by decide) ?_ (by decide) hchecked⟩
  simp only [storedThings, List.mem_cons, List.not_mem_nil, or_false]
  rintro r (rfl | rfl | rfl)
  · exact ⟨_, _, rfl, rfl, by decide, by decide, by decide, by decide⟩
  · exact ⟨_, _, rfl, rfl, by decide, by decide, by decide, by decide⟩
  · exact ⟨_, _, rfl, rfl, by decide, by decide, by decide, by decide⟩

/-- A capital sigma is the final one after a colon, not after a hyphen: as
keys of one type `Σ` and `σ` pass the check and have one name. -/
example : lowerCase "queue:Σ" = "queue:ς" ∧ lowerCase "queue-app-Σ" = "queue-app-σ" := by
  decide +kernel

/-- A separator in a type and in a key makes one name of two resources that
pass the check. -/
theorem separator_joins_names :
    let first : Requirement := ⟨.str "queue", .str "app-jobs", [], .null, .absent⟩
    let second : Requirement := ⟨.str "queue-app", .str "jobs", [], .null, .absent⟩
    Requirement.make (.str "queue") (.str "app-jobs") (.object []) = .ok first
      ∧ Requirement.make (.str "queue-app") (.str "jobs") (.object []) = .ok second
      ∧ Backend.checkCollisions [first, second] = .ok ()
      ∧ first.resourceKey ≠ second.resourceKey
      ∧ ({} : Naming).resourceName first.type (.str "app") first.key = .ok "queue-app-app-jobs"
      ∧ ({} : Naming).resourceName second.type (.str "app") second.key
        = .ok "queue-app-app-jobs" := by
  exact ⟨rfl, rfl, rfl, by decide, rfl, rfl⟩

end Naming

end Depot
