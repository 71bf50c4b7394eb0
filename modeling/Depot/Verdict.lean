/-
The outcome of a check: errors block, warnings inform. A verdict is
usually built from its messages, and then holds exactly when there are
no errors; a check may also pass or fail its verdict outright.

Messages are texts as a rule. They are kept as they came, and are asked
for being texts only where they are joined.
-/
import Depot.Fault

namespace Depot

/-- The outcome of a check. -/
structure Verdict where
  valid : Bool
  errors : List Value := []
  warnings : List Value := []
  deriving DecidableEq, Inhabited

namespace Verdict

/-- A passed check. -/
def ok (warnings : List Value := []) : Verdict := ⟨true, [], warnings⟩

/-- A failed check. -/
def failed (errors : List Value) (warnings : List Value := []) : Verdict :=
  ⟨false, errors, warnings⟩

/-- The verdict that messages amount to: errors fail it. -/
def ofMessages (errors : List Value) (warnings : List Value := []) : Verdict :=
  ⟨errors.isEmpty, errors, warnings⟩

/-- The verdict that texts amount to. -/
def ofTexts (errors : List String) (warnings : List String := []) : Verdict :=
  ofMessages (errors.map .str) (warnings.map .str)

/-- All messages of several verdicts in order. -/
def combine (verdicts : List Verdict) : Verdict :=
  ofMessages (verdicts.flatMap errors) (verdicts.flatMap warnings)

/-- The verdict as a mapping. -/
def toFields (v : Verdict) : Fields :=
  [("valid", .bool v.valid), ("errors", .list v.errors), ("warnings", .list v.warnings)]

/-- Fails with every message unless the verdict is valid. -/
def raiseForErrors (v : Verdict) : Except Fault Unit :=
  if v.valid then .ok () else .error (.validationFailure v.errors v.warnings)

end Verdict

end Depot
