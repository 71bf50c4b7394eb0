/-
How far names tell the variables of components apart. A variable gets the
name of its component in front, with an underscore between the two, and
both are put into a normal form in which underscores stand for all that is
no letter and no digit. So two variables have one name in two cases: where
both parts have one normal form, or where one name is cut at two of its
underscores (`splitName_eq_iff`). In either case the later variable replaces
the earlier one, of whatever component that is
(`api_key_of_other_component_is_lost`).

What is gathered is a table under these names, filled in the order of the
requirements (`gather_answers`), so a variable is kept unless a later one has
its name. Where parts differ in their normal forms, and no component with an
underscore after it begins another one, that means unless its component sets
it again (`variables_of_components_are_kept`).
-/
import Depot.Environment.Variables
import Depot.Proofs.Text.Cut
import Depot.Proofs.Value.Fields
import Depot.Proofs.Value.Writing

namespace Depot.Environment

-- =============================================================== names

/-- What a component is in the names of its variables. -/
def ownerPart (componentId : String) : List Char := normalize (splitWords componentId.toList)

/-- What a variable is in its name. -/
def variablePart (name : String) : List Char := normalize name.toList

/-- A name is the part of the owner, an underscore, and the part of the
variable. -/
theorem toList_splitName (componentId name : String) :
    (splitName componentId name).toList
      = ownerPart componentId ++ '_' :: variablePart name := by
  simp [splitName, ownerPart, variablePart]

/-- Two variables have one name where their parts have, or where the name is
cut at another underscore. -/
theorem splitName_eq_iff {id name id' name' : String} :
    splitName id name = splitName id' name'
      ↔ (ownerPart id = ownerPart id' ∧ variablePart name = variablePart name')
        ∨ Text.CutLater '_' (ownerPart id) (variablePart name) (ownerPart id') (variablePart name')
        ∨ Text.CutLater '_' (ownerPart id') (variablePart name') (ownerPart id)
          (variablePart name) := by
  rw [← String.toList_inj, toList_splitName, toList_splitName, Text.append_mark_inj]

theorem splitNameOf_texts (id name : String) :
    splitNameOf (.str id) (.str name) = .ok (splitName id name) := by
  show Except.ok (splitName (String.ofList id.toList) name) = _
  rw [String.ofList_toList]

-- ====================================================== what is asked for

/-- A variable that a component asks for. -/
structure Asked where
  owner : String
  name : String
  value : Value

namespace Asked

/-- The name that the variable gets. -/
def spelled (a : Asked) : String := splitName a.owner a.name

/-- The variable under its name. -/
def entry (a : Asked) : String × Value := (a.spelled, a.value)

/-- Whether a variable is another one of the same component. -/
def Repeats (b a : Asked) : Prop := b.owner = a.owner ∧ b.name = a.name

end Asked

/-- The variables that a requirement asks for, if its source is a text and
they are a mapping. -/
def Asks (r : Requirement) (asked : List Asked) : Prop :=
  ∃ owner entries, r.sourceName = .ok (.str owner)
    ∧ (Fields.getD r.config "environment_variables").orElse (.object []) = .object entries
    ∧ asked = entries.map fun e => ⟨owner, e.1, e.2⟩

/-- Variables whose names tell them apart: different components and
different variables have different normal forms, and no component with an
underscore after it begins another one. -/
structure ToldApart (asked : List Asked) : Prop where
  owners : ∀ a ∈ asked, ∀ b ∈ asked, ownerPart a.owner = ownerPart b.owner → a.owner = b.owner
  names : ∀ a ∈ asked, ∀ b ∈ asked, variablePart a.name = variablePart b.name → a.name = b.name
  beginnings : ∀ a ∈ asked, ∀ b ∈ asked, ¬ ownerPart a.owner ++ ['_'] <+: ownerPart b.owner

/-- Among variables that are told apart only repeated ones are spelled
alike. -/
theorem ToldApart.spelled_eq_iff {asked : List Asked} (h : ToldApart asked) {a b : Asked}
    (ha : a ∈ asked) (hb : b ∈ asked) : a.spelled = b.spelled ↔ a.Repeats b := by
  have hnever : ∀ {a b : Asked} {back back' : List Char}, a ∈ asked → b ∈ asked →
      ¬ Text.CutLater '_' (ownerPart a.owner) back (ownerPart b.owner) back' := by
    rintro a b back back' ha hb ⟨between, howner, -⟩
    apply h.beginnings a ha b hb
    rw [howner]
    exact ⟨between, by simp⟩
  unfold Asked.spelled
  rw [splitName_eq_iff, or_iff_left (not_or.2 ⟨hnever ha hb, hnever hb ha⟩)]
  constructor
  · rintro ⟨howner, hname⟩
    exact ⟨h.owners a ha b hb howner, h.names a ha b hb hname⟩
  · rintro ⟨howner, hname⟩
    rw [howner, hname]
    exact ⟨rfl, rfl⟩

-- ============================================================ gathering

variable {g : Gathered} {done all : List Asked}

/-- What is gathered are the variables under their names. -/
def Gathered.Holds (g : Gathered) (done : List Asked) : Prop :=
  g.entries = Table.ofEntries (done.map Asked.entry)

/-- The values that are asked for can be written. -/
def Legible (all : List Asked) : Prop := ∀ a ∈ all, a.value.isWritable = true

/-- To say that two values clash both have to be written. -/
theorem clash_answers (hg : g.Holds done) (hdone : ∀ b ∈ done, b ∈ all) {a : Asked}
    (ha : a ∈ all) : Answers (Legible all) (g.clash a.spelled a.value) fun _ => True := by
  unfold Gathered.clash
  split
  · exact .ok trivial
  · next old hold =>
      rw [show g.entries = _ from hg] at hold
      obtain ⟨b, hb, hentry⟩ := List.mem_map.1 (Table.mem_of_lookup_ofEntries hold)
      have hvalue : b.value = old := congrArg Prod.snd hentry
      split
      · exact .ok trivial
      · refine .bind_written (fun h => hvalue ▸ h b (hdone b hb)) ?_
        exact .bind_written (fun h => h a ha) (.ok trivial)

/-- One more variable is added, or something about it cannot be written. -/
theorem add_answers (hg : g.Holds done) (hdone : ∀ b ∈ done, b ∈ all) {a : Asked} (ha : a ∈ all) :
    Answers (Legible all) (g.add (.str a.owner) (a.name, a.value))
      fun g' => g'.Holds (done ++ [a]) := by
  refine .bind_ok (splitNameOf_texts a.owner a.name) ?_
  refine (clash_answers hg hdone ha).bind fun conflicts _ => .ok ?_
  unfold Gathered.Holds
  rw [List.map_append, List.map_singleton, Table.ofEntries_concat, ← show g.entries = _ from hg]
  exact Fields.put_eq g.entries a.spelled a.value

/-- One more requirement adds what it asks for. -/
theorem addAll_answers (hg : g.Holds done) {r : Requirement} {asked : List Asked}
    (hasks : Asks r asked) (hall : ∀ b ∈ done ++ asked, b ∈ all) :
    Answers (Legible all) (g.addAll r) fun g' => g'.Holds (done ++ asked) := by
  obtain ⟨owner, entries, howner, hentries, rfl⟩ := hasks
  unfold Gathered.addAll
  rw [hentries]
  refine .bind_ok rfl (.bind_ok howner ?_)
  clear hentries howner
  induction entries generalizing g done with
  | nil =>
      rw [List.map_nil, List.append_nil]
      exact .ok hg
  | cons e entries ih =>
      rw [List.map_cons, List.append_cons] at hall
      have hdone : ∀ b ∈ done, b ∈ all := fun b hb => hall b (by simp [hb])
      have hadd := add_answers (a := ⟨owner, e.1, e.2⟩) hg hdone (hall _ (by simp))
      rw [List.foldlM_cons, List.map_cons, List.append_cons]
      exact hadd.bind fun g' hg' => ih hg' hall

/-- What is gathered: the variables under their names, in the order in which
they are asked for. -/
theorem gather_answers {rs : List Requirement} {asked : List (List Asked)}
    (hasks : List.Forall₂ Asks rs asked) :
    Answers (Legible asked.flatten) (gather rs)
      fun found => found.1 = Table.ofEntries (asked.flatten.map Asked.entry) := by
  have hall : ∀ (all : List Asked) (g : Gathered) (done : List Asked), g.Holds done →
      (∀ b ∈ done ++ asked.flatten, b ∈ all) →
      Answers (Legible all) (rs.foldlM Gathered.addAll g)
        fun g' => g'.Holds (done ++ asked.flatten) := by
    intro all
    induction hasks with
    | nil =>
        intro g done hg _
        rw [List.flatten_nil, List.append_nil]
        exact .ok hg
    | cons hr _ ih =>
        intro g done hg hin
        rw [List.flatten_cons, ← List.append_assoc] at hin ⊢
        rw [List.foldlM_cons]
        refine (addAll_answers hg hr fun b hb => hin b (List.mem_append_left _ hb)).bind ?_
        exact fun g' hg' => ih g' _ hg' hin
  refine (hall asked.flatten {} [] rfl fun b hb => hb).bind fun g hg => ?_
  exact .ok hg

/-- Variables whose names tell them apart have different names unless one
repeats the other, and each is kept under its name unless its component sets
it again later. Only values that cannot be written, which no text is, can keep
them from being gathered. -/
theorem variables_of_components_are_kept {rs : List Requirement} {asked : List (List Asked)}
    (hasks : List.Forall₂ Asks rs asked) (apart : ToldApart asked.flatten) :
    (∀ a ∈ asked.flatten, ∀ b ∈ asked.flatten, a.spelled = b.spelled ↔ a.Repeats b)
      ∧ Answers (Legible asked.flatten) (gather rs) fun found =>
        ∀ before a after, asked.flatten = before ++ a :: after →
          (∀ later ∈ after, ¬ later.Repeats a) →
          Fields.get? found.1 a.spelled = some a.value := by
  refine ⟨fun a ha b hb => apart.spelled_eq_iff ha hb, (gather_answers hasks).imp ?_⟩
  intro found hfound before a after hsplit hlast
  have hafter : ∀ e ∈ after.map Asked.entry, e.1 ≠ a.spelled := by
    intro e he hname
    obtain ⟨later, hlater, rfl⟩ := List.mem_map.1 he
    have hin : later ∈ asked.flatten := by simp [hsplit, hlater]
    have ha : a ∈ asked.flatten := by simp [hsplit]
    exact hlast later hlater ((apart.spelled_eq_iff hin ha).1 hname)
  rw [hfound, hsplit, List.map_append, List.map_cons]
  exact Table.lookup_ofEntries_of_last _ a.entry hafter

/-- A request for a function app with one variable. -/
def appRequest (owner name value : String) : Requirement :=
  ⟨.str "functions", .str "api", [("environment_variables", .object [(name, .str value)])], .null,
    .known { source := .str owner }⟩

/-- An app with one variable asks for that one. -/
theorem asks_appRequest {owner : String} (h : owner ≠ "") (name value : String) :
    Asks (appRequest owner name value) [⟨owner, name, .str value⟩] := by
  have howner : (Value.str owner).orElse (.str "unknown") = .str owner := by
    unfold Value.orElse
    exact if_pos (decide_eq_true h)
  exact ⟨owner, [(name, .str value)], congrArg Except.ok howner, rfl, rfl⟩

/-- The table of one component, that of another one, and the first again. -/
def askedTables : List Asked :=
  [⟨"UserApi", "table", .str "users"⟩, ⟨"orders", "table", .str "orders"⟩,
    ⟨"UserApi", "table", .str "people"⟩]

theorem toldApart_askedTables : ToldApart askedTables where
  owners := by decide +kernel
  names := by decide +kernel
  beginnings := by decide +kernel

theorem tables_are_kept_apart :
    ∃ rs, List.Forall₂ Asks rs (askedTables.map fun a => [a])
      ∧ ToldApart (askedTables.map fun a => [a]).flatten
      ∧ ∃ entries journal, gather rs = .ok (entries, journal)
        ∧ Fields.get? entries "USER_API_TABLE" = some (.str "people")
        ∧ Fields.get? entries "ORDERS_TABLE" = some (.str "orders") := by
  have hasks : List.Forall₂ Asks [appRequest "UserApi" "table" "users",
      appRequest "orders" "table" "orders", appRequest "UserApi" "table" "people"]
      (askedTables.map fun a => [a]) :=
    .cons (asks_appRequest (by decide) _ _) (.cons (asks_appRequest (by decide) _ _)
      (.cons (asks_appRequest (by decide) _ _) .nil))
  have husers : splitName "UserApi" "table" = "USER_API_TABLE" := by decide +kernel
  have horders : splitName "orders" "table" = "ORDERS_TABLE" := by decide +kernel
  obtain ⟨-, hanswers⟩ := variables_of_components_are_kept hasks toldApart_askedTables
  obtain ⟨⟨entries, journal⟩, hgather, hkept⟩ := hanswers.exists_ok (by unfold Legible; decide)
  refine ⟨_, hasks, toldApart_askedTables, entries, journal, hgather, ?_, ?_⟩
  · rw [← husers]
    exact hkept (askedTables.take 2) ⟨"UserApi", "table", .str "people"⟩ [] rfl (by simp)
  · rw [← horders]
    exact hkept (askedTables.take 1) ⟨"orders", "table", .str "orders"⟩ (askedTables.drop 2) rfl
      (by simp [askedTables, Asked.Repeats])

/-- An underscore in a component's name lets it take the name of another one's
variable, whose value is lost. -/
theorem api_key_of_other_component_is_lost :
    splitName "user" "API_KEY" = splitName "user-api" "KEY"
      ∧ gather [appRequest "user" "API_KEY" "first", appRequest "user-api" "KEY" "second"]
        = .ok ([("USER_API_KEY", .str "second")],
          [⟨.warning, "environment_variable_conflicts",
            [("conflicts", .texts ["Conflict for USER_API_KEY: first vs second"])]⟩]) := by
  constructor
  · decide +kernel
  · rfl

end Depot.Environment
