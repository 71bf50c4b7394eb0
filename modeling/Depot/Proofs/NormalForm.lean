/-
Normal forms of requirement keys and of the names of variables. A key is written
in small letters, digits and single hyphens, the name of a variable in capital
letters, digits and single underscores, and neither begins nor ends with its
separator. What is given for them may be any text. It is brought into one case
first, which may lengthen it and leave letters of any script, and is made tidy
after that. Neither case mapping changes a text that is written in the form's
own alphabet, so both normalizers are projections onto their forms
(`isProjection_sanitizeText`, `isProjection_normalize`).

What is left of a key is accepted as a requirement key unless nothing is
(`isWellFormed_of_isTidy_iff`). The two parts of a variable's name are both in
normal form, so the underscore between them does not meet another one
(`not_double_splitName`).
-/
import Depot.Proofs.Environment.Variables
import Depot.Proofs.Spelling
import Depot.Proofs.Text.Case
import Depot.Proofs.Text.Tidy

namespace Depot

open Text

-- ================================================================ keys

namespace ResourceKey

open Spelling

/-- Sanitizing a key is a projection onto the tidy ones. -/
theorem isProjection_sanitizeText : IsProjection sanitizeText (IsTidy keyAlphabet '-') := by
  have hsmall : (keyAlphabet.all fun c => lowerOne c = [c]) = true := by decide
  refine isProjection_tidy isKeyChar_iff (by decide) fun cs hcs => lower_eq_self fun c hc => ?_
  exact of_decide_eq_true (List.all_eq_true.1 hsmall c (hcs c hc))

-- the Kelvin sign becomes a plain letter, the dotted capital a plain letter and a dot
example : sanitizeText "\u212aİT__ ".toList = "ki-t".toList := by decide +kernel

theorem sanitize_text (key : String) :
    sanitize (.str key) = .ok (String.ofList (sanitizeText key.toList)) := rfl

/-- A key in normal form is refused only if it is empty: it has no line feed
that could be overlooked. -/
theorem isWellFormed_of_isTidy_iff {key : String} (h : IsTidy keyAlphabet '-' key.toList) :
    isWellFormed (.str key) = .ok true ↔ key ≠ "" := by
  have hgiven : key.toList ≠ [] ↔ key ≠ "" := not_congr String.toList_eq_nil_iff
  rw [isWellFormed_iff, ← hgiven]
  constructor
  · rintro (hword | ⟨body, -, hfeed⟩)
    · exact hword.given
    · rw [hfeed]
      simp
  · intro hne
    exact .inl ⟨hne, h.characters⟩

end ResourceKey

-- =========================================================== variables

namespace Environment

/-- What the names of variables are written in. -/
def nameAlphabet : List Char := capitalLetters ++ plainDigits ++ ['_']

theorem isNameChar_iff (c : Char) : isNameChar c = true ↔ c ∈ nameAlphabet := by
  simp [isNameChar, isUpperAscii, isAsciiDigit, nameAlphabet, mem_capitalLetters, mem_plainDigits,
    or_assoc]

/-- Normalizing a part of a name is a projection onto the tidy ones. -/
theorem isProjection_normalize : IsProjection normalize (IsTidy nameAlphabet '_') := by
  have hcapital : (nameAlphabet.all fun c => upperOne c = [c]) = true := by decide
  refine isProjection_tidy isNameChar_iff (by decide) fun cs hcs => upper_eq_self fun c hc => ?_
  exact of_decide_eq_true (List.all_eq_true.1 hcapital c (hcs c hc))

/-- The name of a variable has no two underscores in a row. -/
theorem not_double_splitName (componentId name : String) :
    ¬ ['_', '_'] <:+: (splitName componentId name).toList := by
  have howner : IsTidy nameAlphabet '_' (ownerPart componentId) :=
    isProjection_normalize.formed _
  have hvariable : IsTidy nameAlphabet '_' (variablePart name) :=
    isProjection_normalize.formed _
  rw [toList_splitName]
  exact howner.not_double_around hvariable

end Environment

-- =============================================================== forms

open ResourceKey Environment

/-- Both normalizers bring every text into their form and leave alone what has
it, so that a second time changes nothing. A key that is left is well formed, and
no name of a variable has two underscores in a row. -/
theorem normalizers_are_projections (key componentId name : String) :
    (∃ clean, sanitize (.str key) = .ok clean
        ∧ IsTidy Spelling.keyAlphabet '-' clean.toList
        ∧ (clean = key ↔ IsTidy Spelling.keyAlphabet '-' key.toList)
        ∧ sanitize (.str clean) = .ok clean
        ∧ (isWellFormed (.str clean) = .ok true ↔ clean ≠ ""))
      ∧ (IsTidy nameAlphabet '_' (normalize name.toList)
        ∧ (normalize name.toList = name.toList ↔ IsTidy nameAlphabet '_' name.toList)
        ∧ normalize (normalize name.toList) = normalize name.toList)
      ∧ ∃ full, splitNameOf (.str componentId) (.str name) = .ok full
        ∧ ¬ ['_', '_'] <:+: full.toList := by
  have hkeys := isProjection_sanitizeText
  have hnames := isProjection_normalize
  have hform : IsTidy Spelling.keyAlphabet '-'
      (String.ofList (sanitizeText key.toList)).toList := by
    rw [String.toList_ofList]
    exact hkeys.formed key.toList
  refine ⟨⟨_, sanitize_text key, hform, ?_, ?_, isWellFormed_of_isTidy_iff hform⟩,
    ⟨hnames.formed _, hnames.eq_self_iff _, hnames.idempotent _⟩,
    ⟨_, splitNameOf_texts componentId name, not_double_splitName componentId name⟩⟩
  · rw [← hkeys.eq_self_iff, ← String.toList_inj, String.toList_ofList]
  · rw [sanitize_text, String.toList_ofList, hkeys.idempotent]

end Depot
