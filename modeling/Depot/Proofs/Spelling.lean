/-
The spelling of names. Requirement keys, containers, resources and storage
accounts have names over alphabets of their own, and a check for each that is
meant to accept these names and nothing else.

The alphabets are told by anchored patterns, and these let one line feed pass
at the end of a text. So every check accepts its names, and what is such a name
with a line feed behind it (`checks_accept_names_and_line_feeds`). The lengths
count the line feed in, and a container's name with a line feed does not end in
a hyphen even if there is one in front of it. This is all that is wrong with
the checks: a text that does not end in a line feed is accepted only if it is a
name of its kind.
-/
import Depot.Proofs.Merge.Validation
import Depot.Proofs.Text.Alphabet
import Depot.Provider.Storage
import Depot.Requirement.Key

namespace Depot

namespace Spelling

open Text

variable {cs : List Char}

-- =========================================================== alphabets

/-- What requirement keys and the names of containers are written in. -/
def keyAlphabet : List Char := smallLetters ++ plainDigits ++ ['-']

/-- What the names of storage accounts are written in. -/
def accountAlphabet : List Char := smallLetters ++ plainDigits

/-- What the names of resources begin and end with. -/
def alphanumerics : List Char := smallLetters ++ capitalLetters ++ plainDigits

/-- What the names of resources are written in. -/
def resourceAlphabet : List Char := alphanumerics ++ ['.', '_', '-']

theorem isKeyChar_iff (c : Char) : ResourceKey.isKeyChar c = true ↔ c ∈ keyAlphabet := by
  simp [ResourceKey.isKeyChar, keyAlphabet, mem_smallLetters, mem_plainDigits, or_assoc]

theorem isAccountChar_iff (c : Char) :
    Merge.FieldCheck.isAccountChar c = true ↔ c ∈ accountAlphabet := by
  simp [Merge.FieldCheck.isAccountChar, accountAlphabet, mem_smallLetters, mem_plainDigits]

theorem isAlphanumeric_iff (c : Char) :
    Merge.FieldCheck.isAlphanumeric c = true ↔ c ∈ alphanumerics := by
  simp [Merge.FieldCheck.isAlphanumeric, alphanumerics, mem_smallLetters, mem_capitalLetters,
    mem_plainDigits, or_assoc]

theorem isNameChar_iff (c : Char) :
    Merge.FieldCheck.isNameChar c = true ↔ c ∈ resourceAlphabet := by
  simp [Merge.FieldCheck.isNameChar, isAlphanumeric_iff, resourceAlphabet, or_assoc]

-- =============================================================== names

/-- The name of a container: 3 to 63 small letters, digits and hyphens, with no
hyphen at either end and no two in a row. -/
structure IsContainer (cs : List Char) : Prop where
  length : 3 ≤ cs.length ∧ cs.length ≤ 63
  characters : ∀ c ∈ cs, c ∈ keyAlphabet
  first : cs.head? ≠ some '-'
  last : cs.getLast? ≠ some '-'
  single : ¬ ['-', '-'] <:+: cs

/-- What passes for the name of a container with a line feed behind it. -/
structure IsContainerStem (cs : List Char) : Prop where
  length : 2 ≤ cs.length ∧ cs.length ≤ 62
  characters : ∀ c ∈ cs, c ∈ keyAlphabet
  first : cs.head? ≠ some '-'
  single : ¬ ['-', '-'] <:+: cs

/-- The name of a resource: letters, digits, dots, underscores and hyphens
between a letter or digit at either end. -/
structure IsResource (cs : List Char) : Prop where
  characters : ∀ c ∈ cs, c ∈ resourceAlphabet
  first : ∃ c ∈ alphanumerics, cs.head? = some c
  last : ∃ c ∈ alphanumerics, cs.getLast? = some c

/-- The pattern of a key reads a word of the alphabet, up to one line feed. -/
theorem isWellFormed_iff (key : String) :
    ResourceKey.isWellFormed (.str key) = .ok true
      ↔ UpToLineFeed (IsWord keyAlphabet) key.toList := by
  have hrun : ResourceKey.isWellFormed (.str key)
      = .ok (isWholly ResourceKey.isKeyChar key.toList) := rfl
  rw [hrun, Except.ok.injEq]
  exact isWholly_iff isKeyChar_iff (by decide)

-- ========================================================== containers

/-- A container has no error if its name passes each of the checks. -/
theorem errors_eq_nil_iff (c : Storage.Container) :
    c.errors = [] ↔ (3 ≤ c.name.toList.length ∧ c.name.toList.length ≤ 63)
      ∧ isWholly Storage.isNameChar c.name.toList = true
      ∧ c.name.toList.head? ≠ some '-' ∧ c.name.toList.getLast? ≠ some '-'
      ∧ ¬ ['-', '-'] <:+: c.name.toList := by
  unfold Storage.Container.errors
  dsimp only
  by_cases hempty : c.name = ""
  · rw [if_pos hempty, hempty]
    simp
  · rw [if_neg hempty, ← occursIn_iff]
    simp only [List.append_eq_nil_iff, ite_eq_left_iff, ite_eq_right_iff, List.cons_ne_nil,
      imp_false, not_or, not_not, and_assoc, ne_eq]

/-- Two hyphens in a row do not reach over a line feed. -/
theorem double_concat_iff (body : List Char) :
    ['-', '-'] <:+: body ++ ['\n'] ↔ ['-', '-'] <:+: body := by
  rw [List.infix_concat_iff]
  constructor
  · intro h
    rcases h with h | h
    · obtain ⟨before, h⟩ := h
      have hlast := congrArg List.getLast? h
      simp at hlast
    · exact h
  · exact Or.inr

/-- A container name is accepted if it is one, or a stem with a line feed
behind. -/
theorem container_accepted_iff (c : Storage.Container) :
    c.errors = [] ↔ IsContainer c.name.toList
      ∨ ∃ body, IsContainerStem body ∧ c.name.toList = body ++ ['\n'] := by
  have hwholly : isWholly Storage.isNameChar c.name.toList = true
      ↔ UpToLineFeed (IsWord keyAlphabet) c.name.toList :=
    isWholly_iff isKeyChar_iff (by decide)
  rw [errors_eq_nil_iff, hwholly]
  generalize c.name.toList = cs
  constructor
  · intro h
    obtain ⟨hlength, hword, hfirst, hlast, hsingle⟩ := h
    rcases hword with hword | ⟨body, hword, rfl⟩
    · exact .inl ⟨hlength, hword.characters, hfirst, hlast, hsingle⟩
    · rw [List.length_append, List.length_singleton] at hlength
      rw [List.head?_append_of_ne_nil _ hword.given] at hfirst
      exact .inr ⟨body, ⟨by omega, hword.characters, hfirst,
        mt (double_concat_iff body).2 hsingle⟩, rfl⟩
  · intro h
    rcases h with h | ⟨body, h, rfl⟩
    · have hgiven : cs ≠ [] := by
        intro hnil
        have hlength := h.length.1
        rw [hnil] at hlength
        cases hlength
      exact ⟨h.length, .inl ⟨hgiven, h.characters⟩, h.first, h.last, h.single⟩
    · have hgiven : body ≠ [] := by
        intro hnil
        have hlength := h.length.1
        rw [hnil] at hlength
        cases hlength
      refine ⟨?_, .inr ⟨body, ⟨hgiven, h.characters⟩, rfl⟩, ?_, by simp, ?_⟩
      · rw [List.length_append, List.length_singleton]
        have hlength := h.length
        omega
      · rw [List.head?_append_of_ne_nil _ hgiven]
        exact h.first
      · exact mt (double_concat_iff body).1 h.single

/-- An account is accepted if its containers are and are not too many. -/
theorem account_accepted_iff (a : Storage.Account) :
    (Storage.check a).valid = true ↔ (a.containers.getD []).length ≤ Storage.maxContainers
      ∧ ∀ c ∈ a.containers.getD [], c.errors = [] := by
  unfold Storage.check Verdict.ofTexts Verdict.ofMessages
  dsimp only
  rw [List.isEmpty_iff, List.map_eq_nil_iff, List.append_eq_nil_iff, List.flatMap_eq_nil_iff]
  simp

-- =========================================== resources and accounts

/-- A check of a value finds nothing wrong with it. -/
def Passes (check : Merge.FieldCheck) (v : Value) (place : Merge.Place) : Prop :=
  ∃ findings, check v place = .ok findings ∧ findings.valid = true

open Merge FieldCheck

/-- The length of a text can always be compared. -/
theorem hasLengthBetween_text (low high : Int) (text : String) :
    hasLengthBetween (.int low) (.int high) (.str text)
      = .ok (decide (low ≤ text.length ∧ text.length ≤ high)) := by
  have hlength : (Value.str text).length = .ok text.length := rfl
  unfold hasLengthBetween isBetween
  rw [hlength]
  simp only [bind, Except.bind, Value.compare_atMost_ints]
  by_cases hlow : low ≤ text.length
  · simp [hlow]
  · simp [hlow, pure, Except.pure]

/-- Two findings together are valid if both are. -/
theorem valid_collect_pair (f g : Findings) :
    (Findings.collect [f, g]).valid = true ↔ f.valid = true ∧ g.valid = true := by
  cases hf : f.errors with
  | nil => simp [Findings.collect, Findings.valid, hf]
  | cons issue issues => simp [Findings.collect, Findings.valid, hf]

/-- A text passes a check of length and characters if it passes both. -/
theorem named_passes_iff {α : Type} {length : Except Fault α} {found : α → Findings}
    {form : List Char → Findings} {fits : Prop}
    (hlength : (∃ a, length = .ok a ∧ (found a).valid = true) ↔ fits) (text : String) :
    (∃ findings, (length >>= fun a => (Value.str text).patternText >>= fun cs =>
        pure (Findings.collect [found a, form cs])) = .ok findings ∧ findings.valid = true)
      ↔ fits ∧ (form text.toList).valid = true := by
  rw [← hlength]
  constructor
  · rintro ⟨findings, hrun, hvalid⟩
    obtain ⟨a, ha, hrun⟩ := bind_eq_ok.1 hrun
    cases hrun
    obtain ⟨hfound, hform⟩ := (valid_collect_pair _ _).1 hvalid
    exact ⟨⟨a, ha, hfound⟩, hform⟩
  · rintro ⟨⟨a, rfl, hfound⟩, hform⟩
    exact ⟨_, rfl, (valid_collect_pair _ _).2 ⟨hfound, hform⟩⟩

/-- Nothing is found within the bounds, and something is reported beyond them if
they can be written at all. -/
theorem within_passes_iff {test : Except Fault Bool} {low high : Value}
    {report : String → String → Findings} (hreport : ∀ a b, (report a b).valid = false) :
    (∃ findings, within test low high report = .ok findings ∧ findings.valid = true)
      ↔ test = .ok true := by
  constructor
  · rintro ⟨findings, hrun, hvalid⟩
    obtain ⟨inside, hinside, hrun⟩ := bind_eq_ok.1 hrun
    cases inside with
    | true => exact hinside
    | false =>
        obtain ⟨a, -, hrun⟩ := bind_eq_ok.1 hrun
        obtain ⟨b, -, hrun⟩ := bind_eq_ok.1 hrun
        cases hrun
        rw [hreport] at hvalid
        cases hvalid
  · rintro rfl
    exact ⟨{}, rfl, rfl⟩

/-- What a check finds is one issue or nothing. -/
theorem valid_ite (b : Bool) (message : String) (place : Place) (actual expected : Value)
    (code : String) :
    (if b = true then {} else fail message place actual expected code : Findings).valid = b := by
  cases b with
  | true => rfl
  | false => rfl

/-- The pattern of a resource name reads such a name, up to one line feed. -/
theorem isResourceName_iff : isResourceName cs = true ↔ UpToLineFeed IsResource cs := by
  have hends : ∀ o : Option Char, o.any isAlphanumeric = true
      ↔ ∃ c ∈ alphanumerics, o = some c := by
    intro o
    cases o with
    | none => simp
    | some c => simp [isAlphanumeric_iff]
  have unended : ∀ body, IsResource body → body.getLast? ≠ some '\n' := by
    intro body h hlast
    obtain ⟨c, hc, hcs⟩ := h.last
    rw [hlast] at hcs
    injection hcs with hc'
    subst hc'
    revert hc
    decide
  rw [← anchored_iff unended]
  unfold isResourceName
  dsimp only
  rw [Bool.and_eq_true, Bool.and_eq_true, List.all_eq_true, hends, hends]
  simp only [isNameChar_iff]
  constructor
  · intro h
    exact ⟨h.1.1, h.1.2, h.2⟩
  · intro h
    exact ⟨⟨h.characters, h.first⟩, h.last⟩

/-- A resource name passes if it has the length and its pattern reads it. -/
theorem resourceName_passes_iff (low high : Int) (name : String) (place : Place) :
    Passes (resourceName (.int low) (.int high)) (.str name) place
      ↔ (low ≤ name.length ∧ name.length ≤ high) ∧ UpToLineFeed IsResource name.toList := by
  have hlength : (∃ findings, within (hasLengthBetween (.int low) (.int high) (.str name))
        (.int low) (.int high) (fun low high =>
          fail s!"Resource name length must be between {low} and {high} characters" place
            (.str name) (.str s!"Length: {low}-{high}") "INVALID_LENGTH") = .ok findings
        ∧ findings.valid = true)
      ↔ low ≤ name.length ∧ name.length ≤ high := by
    rw [within_passes_iff fun _ _ => rfl, hasLengthBetween_text]
    simp
  rw [← isResourceName_iff]
  refine (named_passes_iff hlength name).trans ?_
  rw [valid_ite]

/-- The name of an account passes if it has the length and its characters
are those of accounts, up to one line feed. -/
theorem storageAccountName_passes_iff (name : String) (place : Place) :
    Passes storageAccountName (.str name) place
      ↔ (3 ≤ name.length ∧ name.length ≤ 24)
        ∧ UpToLineFeed (IsWord accountAlphabet) name.toList := by
  have hwholly : isWholly isAccountChar name.toList = true
      ↔ UpToLineFeed (IsWord accountAlphabet) name.toList :=
    isWholly_iff isAccountChar_iff (by decide)
  have hlength : (∃ b, hasLengthBetween (.int 3) (.int 24) (.str name) = .ok b
        ∧ (if b = true then {} else fail "Storage account name must be 3-24 characters" place
          (.str name) (.str "Length: 3-24") "INVALID_LENGTH" : Findings).valid = true)
      ↔ 3 ≤ name.length ∧ name.length ≤ 24 := by
    rw [hasLengthBetween_text]
    simp only [valid_ite]
    simp
  refine (named_passes_iff hlength name).trans ?_
  rw [valid_ite, hwholly]

-- ============================================================ the checks

/-- The checks of names accept the names of their kinds and, beside these, what
is such a name, or the stem of one, with a line feed behind it. -/
theorem checks_accept_names_and_line_feeds (name : String) (a : Storage.Account) (low high : Int)
    (place : Place) :
    (ResourceKey.isWellFormed (.str name) = .ok true
        ↔ UpToLineFeed (IsWord keyAlphabet) name.toList)
      ∧ ((Storage.check a).valid = true
        ↔ (a.containers.getD []).length ≤ Storage.maxContainers
          ∧ ∀ c ∈ a.containers.getD [], IsContainer c.name.toList
            ∨ ∃ body, IsContainerStem body ∧ c.name.toList = body ++ ['\n'])
      ∧ (Passes (resourceName (.int low) (.int high)) (.str name) place
        ↔ (low ≤ name.length ∧ name.length ≤ high) ∧ UpToLineFeed IsResource name.toList)
      ∧ (Passes storageAccountName (.str name) place
        ↔ (3 ≤ name.length ∧ name.length ≤ 24)
          ∧ UpToLineFeed (IsWord accountAlphabet) name.toList) := by
  refine ⟨isWellFormed_iff name, ?_, resourceName_passes_iff low high name place,
    storageAccountName_passes_iff name place⟩
  simp only [account_accepted_iff, container_accepted_iff]

/-- No check holds a line feed against a name, and for a container's name it
also hides a hyphen at the end. -/
theorem line_feeds_pass :
    let field : Place := ⟨.str "field", .str "test", .object []⟩
    let account : Storage.Account :=
      { containers := some [{ name := "logs\n" }, { name := "a-\n" }] }
    (ResourceKey.isWellFormed (.str "jobs\n") = .ok true ∧ ¬ IsWord keyAlphabet "jobs\n".toList)
      ∧ ((Storage.check account).valid = true
        ∧ ¬ IsContainer "logs\n".toList ∧ ¬ IsContainer "a-\n".toList)
      ∧ (Passes (resourceName) (.str "web\n") field ∧ ¬ IsResource "web\n".toList)
      ∧ Passes storageAccountName (.str "logs\n") field
        ∧ ¬ IsWord accountAlphabet "logs\n".toList := by
  refine ⟨⟨rfl, fun h => ?_⟩, ⟨by decide, fun h => ?_, fun h => ?_⟩,
    ⟨⟨_, rfl, rfl⟩, fun h => ?_⟩, ⟨_, rfl, rfl⟩, fun h => ?_⟩
  · exact absurd (h.characters '\n' (by decide)) (by decide)
  · exact absurd (h.characters '\n' (by decide)) (by decide)
  · exact absurd (h.characters '\n' (by decide)) (by decide)
  · exact absurd (h.characters '\n' (by decide)) (by decide)
  · exact absurd (h.characters '\n' (by decide)) (by decide)

end Spelling

end Depot
