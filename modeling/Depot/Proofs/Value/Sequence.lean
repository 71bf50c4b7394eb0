/-
Sequences of values: items by position, texts that are joined, and mappings
that are taken for what they are.
-/
import Depot.Proofs.Work
import Depot.Value.Sequence

namespace Depot.Value

theorem itemAt_map {α : Type} {xs : List α} {i : Nat} {x : α} (f : α → Value)
    (h : xs[i]? = some x) : itemAt (xs.map f) i = .ok (f x) := by
  unfold itemAt
  rw [List.getElem?_map, h]
  rfl

theorem itemAt_of_lt {xs : List Value} {i : Nat} (h : i < xs.length) :
    itemAt xs i = .ok xs[i] := by
  unfold itemAt
  rw [List.getElem?_eq_getElem h]

theorem itemAt_take {xs : List Value} {i count : Nat} (h : i < count) :
    itemAt (xs.take count) i = itemAt xs i := by
  unfold itemAt
  rw [List.getElem?_take_of_lt h]

/-- Mappings have entries. -/
theorem mapM_entriesOf (part : String) (objects : List Fields) :
    (objects.map Value.object).mapM (entriesOf part) = .ok objects := by
  rw [List.mapM_map]
  exact (mapM_ok (g := id) fun fs _ => rfl).trans (by rw [List.map_id])

/-- Texts can be joined. -/
theorem joinTexts_texts (separator : String) (ss : List String) :
    joinTexts separator (ss.map .str) = .ok (separator.intercalate ss) := by
  have hfrom : ∀ n, textsFrom n (ss.map .str) = .ok ss := by
    induction ss with
    | nil => intro n; rfl
    | cons s ss ih =>
        intro n
        rw [List.map_cons, textsFrom, ih]
        rfl
  rw [joinTexts, hfrom]
  rfl

end Depot.Value
