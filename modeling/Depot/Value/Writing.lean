/-
Values that are written down: as identities, and in what is reported. A
whole number has a greatest length, and a value that holds a longer one
anywhere cannot be written at all. So whatever compares values by their
identity or shows them can fail on such a value, and the fault is passed
on to whoever asked.

No number of a JSON text is that long. A program can compute such a
number, and a file can write it in base two or sixteen.
-/
import Depot.Number.Written

namespace Depot.Value

mutual
/-- Whether all whole numbers in the value can be written in digits. -/
def isWritable : Value → Bool
  | .int n => Written.isWritable n
  | .list xs => itemsWritable xs
  | .object fs => fieldsWritable fs
  | _ => true
/-- Whether all whole numbers in a list can be written. -/
def itemsWritable : List Value → Bool
  | [] => true
  | v :: vs => isWritable v && itemsWritable vs
/-- Whether all whole numbers under some entries can be written. -/
def fieldsWritable : List (String × Value) → Bool
  | [] => true
  | (_, v) :: fs => isWritable v && fieldsWritable fs
end

/-- What is made by writing the value, unless it cannot be written. -/
def written {α : Type} (v : Value) (a : α) : Except Fault α :=
  if v.isWritable then .ok a else .error Written.tooLongToWrite

/-- The identity of the value in structural comparisons. -/
def key (v : Value) : Except Fault String := v.written v.wire

/-- The value as a structure shows it: strings are quoted. -/
def quoted (v : Value) : Except Fault String := v.written v.quotedLabel

/-- The value as a message shows it: a string stands as it is. -/
def display (v : Value) : Except Fault String := v.written v.label

theorem written_of_writable {α : Type} {v : Value} (h : v.isWritable = true) (a : α) :
    v.written a = .ok a := if_pos h

theorem written_of_not_writable {α : Type} {v : Value} (h : v.isWritable = false) (a : α) :
    v.written a = .error Written.tooLongToWrite := if_neg (Bool.eq_false_iff.1 h)

theorem key_of_writable {v : Value} (h : v.isWritable = true) : v.key = .ok v.wire :=
  written_of_writable h v.wire

theorem key_of_not_writable {v : Value} (h : v.isWritable = false) :
    v.key = .error Written.tooLongToWrite := written_of_not_writable h v.wire

@[simp] theorem display_str (s : String) : (Value.str s).display = .ok s := rfl

theorem itemsWritable_eq (xs : List Value) : itemsWritable xs = xs.all isWritable := by
  induction xs with
  | nil => rfl
  | cons v vs ih => rw [itemsWritable, ih, List.all_cons]

theorem fieldsWritable_eq (fs : Fields) : fieldsWritable fs = fs.all fun e => e.2.isWritable := by
  induction fs with
  | nil => rfl
  | cons e fs ih => rw [fieldsWritable, ih, List.all_cons]

end Depot.Value
