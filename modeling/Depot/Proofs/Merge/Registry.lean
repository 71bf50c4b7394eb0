/-
What a registry of custom strategies holds and finds after any history of
registrations. Whether for a path or for a pattern, a strategy is filed
under a text, and the registry has one entry for each text that was ever
used: the one registered last, in the place of the first
(`entries_ofList`). That decides every look-up.

What one would expect of a look-up is said without the registry
(`expected`): the last strategy for exactly this path; else, of the
patterns in the order of their first registration, each with its last
strategy, the first that occurs in the path. A registry gives that for
every history in which no text is used for both a path and a pattern
(`find_eq_expected`). Where one is, the later of the two kinds displaces
the earlier (`pattern_displaces_path`).

Both laws are inductions from the right, as one more registration either
takes a place or goes to the end.
-/
import Depot.Merge.Registry
import Depot.Proofs.Table

namespace Depot.Merge

-- ============================================================ histories

namespace Custom

/-- Whether the strategy is bound to a pattern. -/
def isPattern (c : Custom) : Bool :=
  match c.target with
  | .path _ => false
  | .pattern _ => true

/-- Whether the strategy is filed under a text. -/
def isUnder (text : String) (c : Custom) : Bool := c.target.key = text

/-- Whether the strategy is bound to exactly a path. -/
def isFor (path : String) (c : Custom) : Bool :=
  match c.target with
  | .path p => p = path
  | .pattern _ => false

/-- A strategy is for a path if it is an exact one under that text. -/
theorem isFor_iff {c : Custom} {path : String} :
    c.isFor path = true ↔ c.isUnder path = true ∧ c.isPattern = false := by
  unfold isFor isUnder isPattern
  cases c.target with
  | path p => exact (and_iff_left rfl).symm
  | pattern p => simp

end Custom

/-- The last registration of some kind. -/
def latest (wanted : Custom → Bool) (history : List Custom) : Option Custom :=
  history.reverse.find? wanted

/-- The texts of all registrations, each where it came first. -/
def textsOf (history : List Custom) : List String :=
  (history.map fun c => c.target.key).eraseDups

variable {history : List Custom} {c new : Custom} {text path : String}
  {wanted wanted' : Custom → Bool}

/-- The latest that is wanted is the new one, or was before. -/
theorem latest_concat (wanted : Custom → Bool) (history : List Custom) (new : Custom) :
    latest wanted (history ++ [new])
      = if wanted new then some new else latest wanted history := by
  unfold latest
  rw [List.reverse_append, List.reverse_singleton, List.singleton_append, List.find?_cons]
  cases wanted new with
  | true => rfl
  | false => rfl

theorem latest_eq_none_iff : latest wanted history = none ↔ ∀ c ∈ history, wanted c = false := by
  simp [latest, List.find?_eq_none]

theorem of_latest (h : latest wanted history = some c) : c ∈ history ∧ wanted c = true :=
  ⟨List.mem_reverse.1 (List.mem_of_find?_eq_some h), List.find?_some h⟩

theorem latest_congr (h : ∀ c ∈ history, wanted c = wanted' c) :
    latest wanted history = latest wanted' history := by
  induction history using List.reverseRecOn with
  | nil => rfl
  | append_singleton history new ih =>
      rw [latest_concat, latest_concat, ih fun c hc => h c (by simp [hc]), h new (by simp)]

theorem mem_textsOf : text ∈ textsOf history ↔ ∃ c ∈ history, c.target.key = text := by
  simp [textsOf, List.mem_eraseDups]

/-- A new text goes to the end; one that is there stays in place. -/
theorem textsOf_concat (history : List Custom) (new : Custom) :
    textsOf (history ++ [new])
      = if new.target.key ∈ textsOf history then textsOf history
        else textsOf history ++ [new.target.key] := by
  unfold textsOf
  rw [List.map_append, List.map_singleton, eraseDups_concat]
  simp only [List.mem_eraseDups]

-- ============================================================= entries

namespace Registry

/-- One more registration is the last. -/
theorem ofList_concat (history : List Custom) (new : Custom) :
    ofList (history ++ [new]) = (ofList history).register new := by
  unfold ofList
  rw [List.foldl_append]
  rfl

/-- One more strategy among some that stand under different texts: it takes
the place of the one with its text, or goes to the end. -/
theorem replace_filterMap {texts : List String} (distinct : texts.Nodup)
    {found : String → Option Custom} (under : ∀ t c, found t = some c → c.target.key = t)
    (present : ∀ t ∈ texts, (found t).isSome) (new : Custom) :
    replace new (texts.filterMap found)
      = if new.target.key ∈ texts then
          texts.filterMap fun t => if t = new.target.key then some new else found t
        else texts.filterMap found ++ [new] := by
  induction texts with
  | nil => rfl
  | cons t texts ih =>
      obtain ⟨hnew, hdistinct⟩ := List.nodup_cons.1 distinct
      obtain ⟨c, hc⟩ := Option.isSome_iff_exists.1 (present t (by simp))
      have hkey := under t c hc
      rw [List.filterMap_cons_some hc]
      unfold replace
      by_cases heq : t = new.target.key
      · -- the place is here, and no later text is this one
        have hrest : (texts.filterMap fun t => if t = new.target.key then some new else found t)
            = texts.filterMap found := by
          refine List.filterMap_congr fun t' ht' => if_neg ?_
          rintro rfl
          exact hnew (heq ▸ ht')
        rw [if_pos (hkey.trans heq), if_pos (by simp [heq]),
          List.filterMap_cons_some (by rw [if_pos heq]), hrest]
      · have hin : new.target.key ∈ t :: texts ↔ new.target.key ∈ texts := by
          simp [Ne.symm heq]
        rw [if_neg (by rw [hkey]; exact heq),
          ih hdistinct fun t' ht' => present t' (by simp [ht'])]
        by_cases hmem : new.target.key ∈ texts
        · rw [if_pos hmem, if_pos (hin.2 hmem), List.filterMap_cons_some (by rw [if_neg heq, hc])]
        · rw [if_neg hmem, if_neg fun h => hmem (hin.1 h)]
          rfl

/-- A registry has one strategy for each text that was used, the last one,
in the place of the first. -/
theorem entries_ofList (history : List Custom) :
    (ofList history).entries
      = (textsOf history).filterMap fun text => latest (Custom.isUnder text) history := by
  induction history using List.reverseRecOn with
  | nil => rfl
  | append_singleton history new ih =>
      have hstep : (ofList (history ++ [new])).entries = replace new (ofList history).entries := by
        rw [ofList_concat]
        rfl
      have hlatest : ∀ text, latest (Custom.isUnder text) (history ++ [new])
          = if text = new.target.key then some new
            else latest (Custom.isUnder text) history := by
        intro text
        rw [latest_concat]
        simp [Custom.isUnder, eq_comm]
      have hunder : ∀ t c, latest (Custom.isUnder t) history = some c → c.target.key = t :=
        fun t c h => of_decide_eq_true (of_latest h).2
      have hpresent : ∀ t ∈ textsOf history,
          (latest (Custom.isUnder t) history).isSome := by
        intro t ht
        rw [Option.isSome_iff_ne_none]
        intro hnone
        obtain ⟨c, hc, hkey⟩ := mem_textsOf.1 ht
        have hno := latest_eq_none_iff.1 hnone c hc
        simp [Custom.isUnder, hkey] at hno
      have hdistinct : (textsOf history).Nodup := nodup_eraseDups _
      rw [hstep, ih, replace_filterMap hdistinct hunder hpresent, textsOf_concat]
      simp only [hlatest]
      by_cases hin : new.target.key ∈ textsOf history
      · rw [if_pos hin, if_pos hin]
      · have hkept : (textsOf history).filterMap
              (fun text => if text = new.target.key then some new
                else latest (Custom.isUnder text) history)
            = (textsOf history).filterMap fun text => latest (Custom.isUnder text) history := by
          refine List.filterMap_congr fun t ht => if_neg ?_
          rintro rfl
          exact hin ht
        rw [if_neg hin, if_neg hin, List.filterMap_append, hkept]
        simp

/-- A registration is found under its own text; elsewhere nothing changes. -/
theorem get?_register (r : Registry) (new : Custom) (text : String) :
    (r.register new).get? text = if new.isUnder text then some new else r.get? text := by
  obtain ⟨cs⟩ := r
  show (replace new cs).find? (Custom.isUnder text) = if new.isUnder text then some new
    else cs.find? (Custom.isUnder text)
  induction cs with
  | nil =>
      rw [replace, List.find?_singleton]
      rfl
  | cons c cs ih =>
      unfold replace
      by_cases hkey : c.target.key = new.target.key
      · have hsame : c.isUnder text = new.isUnder text := by
          unfold Custom.isUnder
          rw [hkey]
        rw [if_pos hkey, List.find?_cons, List.find?_cons, hsame]
        cases new.isUnder text with
        | true => rfl
        | false => rfl
      · rw [if_neg hkey, List.find?_cons, List.find?_cons, ih]
        cases hc : c.isUnder text with
        | false => rfl
        | true =>
            have hnew : new.isUnder text = false := by
              rw [Bool.eq_false_iff]
              intro h
              exact hkey ((of_decide_eq_true hc).trans (of_decide_eq_true h).symm)
            rw [hnew]
            rfl

/-- Under a text the latest registration is found. -/
theorem get?_ofList (history : List Custom) (text : String) :
    (ofList history).get? text = latest (Custom.isUnder text) history := by
  induction history using List.reverseRecOn with
  | nil => rfl
  | append_singleton history new ih => rw [ofList_concat, get?_register, latest_concat, ih]

-- ============================================================= look-up

/-- A look-up in two steps: what stands under the path, if that is no
pattern, and else the first entry whose pattern occurs in the path. -/
theorem find_eq (r : Registry) (path : String) :
    r.find path = ((r.get? path).filter fun c => !c.isPattern).or
      (r.entries.find? fun c => Custom.coversByPattern c path) := by
  unfold find
  rcases r.get? path with _ | ⟨target, handler, description⟩
  · rfl
  · cases target with
    | path p => rfl
    | pattern p => rfl

end Registry

/-- The strategy that one would expect for a path after some registrations:
the last one for exactly this path; else, of the patterns in the order of
their first registration, each with its last strategy, the first that
occurs in the path. -/
def expected (history : List Custom) (path : String) : Option Custom :=
  let patterns := history.filter Custom.isPattern
  (latest (Custom.isFor path) history).or
    (((textsOf patterns).filterMap fun text => latest (Custom.isUnder text) patterns).find?
      fun c => Registry.Custom.coversByPattern c path)

/-- No text is used for both a path and a pattern. -/
def Unmixed (history : List Custom) : Prop :=
  ∀ c ∈ history, ∀ d ∈ history, c.target.key = d.target.key → c.isPattern = d.isPattern

instance (history : List Custom) : Decidable (Unmixed history) := by
  unfold Unmixed
  infer_instance

namespace Registry

/-- Everything that is left was registered. -/
theorem mem_of_mem_entries (h : c ∈ (ofList history).entries) : c ∈ history := by
  rw [entries_ofList] at h
  obtain ⟨text, -, hc⟩ := List.mem_filterMap.1 h
  exact (of_latest hc).1

/-- Where the text of a strategy is used for its own kind only, the other
kind is not touched by its registration. -/
theorem filter_replace {cs : List Custom}
    (h : ∀ c ∈ cs, c.target.key = new.target.key → c.isPattern = new.isPattern) :
    (replace new cs).filter Custom.isPattern
      = if new.isPattern then replace new (cs.filter Custom.isPattern)
        else cs.filter Custom.isPattern := by
  induction cs with
  | nil =>
      cases hnew : new.isPattern with
      | true => simp [replace, hnew]
      | false => simp [replace, hnew]
  | cons c cs ih =>
      have ih := ih fun d hd => h d (by simp [hd])
      by_cases hkey : c.target.key = new.target.key
      · have hsame := h c (by simp) hkey
        cases hnew : new.isPattern with
        | true => simp [replace, hkey, hsame, hnew]
        | false => simp [replace, hkey, hsame, hnew]
      · rw [replace, if_neg hkey, List.filter_cons, List.filter_cons, ih]
        cases hc : c.isPattern with
        | true =>
            cases hnew : new.isPattern with
            | true => simp [replace, hkey]
            | false => simp
        | false => simp

/-- Without mixed texts the patterns stand as if nothing else were
registered. -/
theorem entries_patterns (unmixed : Unmixed history) :
    (ofList history).entries.filter Custom.isPattern
      = (ofList (history.filter Custom.isPattern)).entries := by
  induction history using List.reverseRecOn with
  | nil => rfl
  | append_singleton history new ih =>
      have hhistory : Unmixed history := fun c hc d hd =>
        unmixed c (by simp [hc]) d (by simp [hd])
      have hnew : ∀ c ∈ (ofList history).entries,
          c.target.key = new.target.key → c.isPattern = new.isPattern := fun c hc =>
        unmixed c (by simp [mem_of_mem_entries hc]) new (by simp)
      rw [ofList_concat, register, filter_replace hnew, ih hhistory, List.filter_append,
        List.filter_singleton]
      cases new.isPattern with
      | true =>
          simp only [if_true, cond_true]
          rw [ofList_concat]
          rfl
      | false => simp

/-- What stands under a path and is no pattern was registered for just that
path. -/
theorem latest_path (unmixed : Unmixed history) (path : String) :
    (latest (Custom.isUnder path) history).filter (fun c => !c.isPattern)
      = latest (Custom.isFor path) history := by
  rcases hlatest : latest (Custom.isUnder path) history with _ | c
  · symm
    refine latest_eq_none_iff.2 fun d hd => Bool.eq_false_iff.2 fun hpath => ?_
    have hunder := (Custom.isFor_iff.1 hpath).1
    rw [latest_eq_none_iff.1 hlatest d hd] at hunder
    cases hunder
  · obtain ⟨hc, hkey⟩ := of_latest hlatest
    have hsame : ∀ d ∈ history, d.isUnder path = true → d.isPattern = c.isPattern := fun d hd h =>
      unmixed d hd c hc ((of_decide_eq_true h).trans (of_decide_eq_true hkey).symm)
    rw [Option.filter_some]
    cases hpattern : c.isPattern with
    | true =>
        symm
        refine latest_eq_none_iff.2 fun d hd => Bool.eq_false_iff.2 fun hpath => ?_
        obtain ⟨hunder, hexact⟩ := Custom.isFor_iff.1 hpath
        rw [hsame d hd hunder, hpattern] at hexact
        cases hexact
    | false =>
        show some c = _
        rw [← hlatest]
        refine latest_congr fun d hd => ?_
        rw [Bool.eq_iff_iff, Custom.isFor_iff]
        exact ⟨fun h => ⟨h, (hsame d hd h).trans hpattern⟩, And.left⟩

theorem isPattern_of_covers (h : Custom.coversByPattern c path = true) : c.isPattern = true := by
  obtain ⟨target, handler, description⟩ := c
  cases target with
  | path p => cases h
  | pattern p => rfl

/-- A look-up after any history, by what stands under the texts that were
used. -/
theorem find_ofList (history : List Custom) (path : String) :
    (ofList history).find path
      = ((latest (Custom.isUnder path) history).filter fun c => !c.isPattern).or
        (((textsOf history).filterMap fun text => latest (Custom.isUnder text) history).find?
          fun c => Custom.coversByPattern c path) := by
  rw [find_eq, get?_ofList, entries_ofList]

/-- A look-up gives what one would expect, for every history in which no
text is used for both a path and a pattern. -/
theorem find_eq_expected (unmixed : Unmixed history) (path : String) :
    (ofList history).find path = expected history path := by
  unfold expected
  dsimp only
  rw [find_ofList, latest_path unmixed, ← entries_ofList history, ← entries_ofList,
    ← entries_patterns unmixed, List.find?_filter]
  have hcovers : (fun c => Custom.coversByPattern c path)
      = fun c => decide (c.isPattern = true ∧ Custom.coversByPattern c path = true) := by
    funext c
    rw [Bool.eq_iff_iff, decide_eq_true_eq]
    exact ⟨fun h => ⟨isPattern_of_covers h, h⟩, And.right⟩
  rw [← hcovers]

-- ============================================================ examples

/-- A strategy that is known by its description. -/
def described (target : Target) (description : String) : Custom :=
  ⟨target, fun _ _ => .error (.badValue description), .str description⟩

/-- The pattern of a text without marks. -/
def plainly (text : String) : Text.Pattern :=
  ⟨text, text.toList.map fun c => .once (.only c)⟩

/-- A path that was registered twice, among patterns one of which was
registered twice. -/
theorem repeated_registrations_are_found :
    let history := [described (.pattern (plainly "limits").matcher) "first limits",
      described (.path "config.limits.cpu") "first cpu",
      described (.pattern (plainly "config").matcher) "config",
      described (.pattern (plainly "limits").matcher) "second limits",
      described (.path "config.limits.cpu") "second cpu"]
    let found := fun path => ((ofList history).find path).map Custom.description
    Unmixed history ∧ found "config.limits.cpu" = some (.str "second cpu")
      ∧ found "config.limits.memory" = some (.str "second limits")
      ∧ found "config.name" = some (.str "config") ∧ found "name" = none := by
  intro history found
  have unmixed : Unmixed history := by decide
  have hfound : ∀ path, found path = (expected history path).map Custom.description :=
    fun path => congrArg (Option.map Custom.description) (find_eq_expected unmixed path)
  exact ⟨unmixed, (hfound _).trans rfl, (hfound _).trans rfl, (hfound _).trans rfl,
    (hfound _).trans rfl⟩

/-- A pattern displaces the strategy for exactly the path that it is
written like. -/
theorem pattern_displaces_path :
    let history := [described (.path "config") "path",
      described (.pattern (plainly "config").matcher) "pattern"]
    Text.Pattern.ofText? "config" = some (plainly "config")
      ∧ ((ofList history).find "config").map Custom.description = some (.str "pattern")
      ∧ (expected history "config").map Custom.description = some (.str "path") :=
  ⟨rfl, rfl, rfl⟩

end Registry

end Depot.Merge
