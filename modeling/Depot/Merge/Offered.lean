/-
Strategies at work on values that come as one value. A list or a text
holds the values that it is walked through. What counts as nothing holds
none. A mapping can be walked, but has no first item to start from; what
else is given cannot even be walked.

Each strategy meets such a value with its own first question: whether
there is anything, how much there is, or what comes first.
-/
import Depot.Merge.Strategy

namespace Depot.Merge

/-- The fault of cutting a mapping. -/
def noCut : Fault := .badType "unhashable type: 'slice'"

/-- What a strategy asks of a mapping with some entries. -/
def Strategy.refusal (s : Strategy) (fs : Fields) (ctx : Context) : Except Fault Outcome := do
  match s, fs with
  | .maximum, _ | .minimum, _ | .intersection, _ :: _ :: _ => throw noCut
  | .custom, _ :: _ :: _ => throw ((Value.str "").lacks "get")
  | .priority, _ :: _ :: _ =>
      discard (Value.greatest ctx.priorities)
      throw (.noEntry "0")
  | _, _ => throw (.noEntry "0")

/-- The outcome of a strategy for values that come as one value. -/
def Strategy.settle (s : Strategy) (handler : Handler) (values : Value) (ctx : Context) :
    Except Fault Outcome := do
  match values with
  | .list vs => handler vs ctx
  | .object (f :: fs) =>
      if s = .union then handler (← values.iterate) ctx else s.refusal (f :: fs) ctx
  | v =>
      if v.isTruthy || s = .union then handler (← v.iterate) ctx else handler [] ctx

end Depot.Merge
