import Mathlib.Tactic.Common

/-!
# Three-valued logic

`AND` and `OR` where an operand may be `NULL`.
-/

namespace Sql

def and3 : Option Bool → Option Bool → Option Bool
  | some false, _ => some false
  | _, some false => some false
  | some true, some true => some true
  | _, _ => none

def or3 : Option Bool → Option Bool → Option Bool
  | some true, _ => some true
  | _, some true => some true
  | some false, some false => some false
  | _, _ => none

variable {a b : Bool} {x : Option Bool}

@[simp] theorem and3_some : and3 (some a) (some b) = some (a && b) := by
  cases a <;> cases b <;> rfl

@[simp] theorem or3_some : or3 (some a) (some b) = some (a || b) := by
  cases a <;> cases b <;> rfl

@[simp] theorem and3_false : and3 x (some false) = some false := by
  rcases x with _ | _ | _ <;> rfl

@[simp] theorem or3_true : or3 (some true) x = some true := by
  rcases x with _ | _ | _ <;> rfl

end Sql
