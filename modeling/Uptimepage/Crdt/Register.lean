import Mathlib.Order.Lattice
import Mathlib.Tactic.Common

/-!
# Registers merged by taking the newer

`newest stamp a b` is what a last-writer-wins register holds once it has heard of both: `b` if
its stamp is strictly the greater, else what it had.  A `Register` is a value with a merge of
this kind: associative, idempotent, and such that merging a value a second time changes nothing.
It need not commute, because two values of one stamp may differ.
-/

namespace Crdt

/-! ## One field -/

section Newest
variable {V T : Type} [LinearOrder T] (stamp : V → T)

def newest (a b : V) : V := if stamp a < stamp b then b else a

theorem newest_of_lt {a b : V} (h : stamp a < stamp b) : newest stamp a b = b := if_pos h

theorem newest_of_le {a b : V} (h : stamp b ≤ stamp a) : newest stamp a b = a :=
  if_neg (not_lt.mpr h)

theorem stamp_newest (a b : V) : stamp (newest stamp a b) = max (stamp a) (stamp b) := by
  by_cases h : stamp a < stamp b
  · rw [newest_of_lt stamp h, max_eq_right h.le]
  · have h := not_lt.mp h
    rw [newest_of_le stamp h, max_eq_left h]

theorem newest_self (a : V) : newest stamp a a = a := newest_of_le stamp le_rfl

theorem newest_assoc (a b c : V) :
    newest stamp (newest stamp a b) c = newest stamp a (newest stamp b c) := by
  by_cases hbc : stamp b < stamp c
  · rw [newest_of_lt stamp hbc]
    by_cases hab : stamp a < stamp b
    · rw [newest_of_lt stamp hab, newest_of_lt stamp hbc, newest_of_lt stamp (hab.trans hbc)]
    · rw [newest_of_le stamp (not_lt.mp hab)]
  · have hcb := not_lt.mp hbc
    rw [newest_of_le stamp hcb]
    apply newest_of_le
    rw [stamp_newest stamp]
    exact hcb.trans (le_max_right _ _)

theorem newest_newest_left (a b : V) :
    newest stamp (newest stamp a b) a = newest stamp a b := by
  apply newest_of_le
  rw [stamp_newest stamp]
  exact le_max_left _ _

theorem newest_eq_left_iff {a b : V} : newest stamp a b = a ↔ stamp b ≤ stamp a := by
  constructor
  · intro h
    have hs := stamp_newest stamp a b
    rw [h] at hs
    calc stamp b ≤ max (stamp a) (stamp b) := le_max_right _ _
      _ = stamp a := hs.symm
  · exact newest_of_le stamp

theorem newest_eq_right_iff {a b : V} :
    newest stamp a b = b ↔ stamp a < stamp b ∨ a = b := by
  constructor
  · intro h
    by_cases hab : stamp a < stamp b
    · exact .inl hab
    · rw [newest_of_le stamp (not_lt.mp hab)] at h
      exact .inr h
  · rintro (h | rfl)
    · exact newest_of_lt stamp h
    · exact newest_self stamp a

end Newest

/-! ## Registers -/

class Register (S : Type) where
  merge : S → S → S
  merge_assoc : ∀ a b c, merge (merge a b) c = merge a (merge b c)
  merge_self : ∀ a, merge a a = a
  merge_merge_left : ∀ a b, merge (merge a b) a = merge a b

variable {S : Type} [Register S] {a b c : S}

open Register

/-- `b` has all that `a` has, or newer. -/
def Older (a b : S) : Prop := merge a b = b

/-- `c` has nothing older than `a` has. -/
def Covers (c a : S) : Prop := merge c a = c

theorem Older.refl (a : S) : Older a a := merge_self a

theorem Older.trans (hab : Older a b) (hbc : Older b c) : Older a c := by
  unfold Older at *
  calc merge a c = merge a (merge b c) := by rw [hbc]
    _ = merge (merge a b) c := (merge_assoc a b c).symm
    _ = c := by rw [hab, hbc]

theorem Older.covers (h : Older a b) : Covers b a := by
  unfold Covers
  calc merge b a = merge (merge a b) a := by rw [h]
    _ = merge a b := merge_merge_left a b
    _ = b := h

theorem Older.antisymm (hab : Older a b) (hba : Older b a) : a = b := by
  have h : merge b a = b := hab.covers
  exact hba.symm.trans h

theorem Older.comm (h : Older a b) : merge a b = merge b a := by
  have hba : merge b a = b := h.covers
  rw [hba]
  exact h

theorem older_merge (a b : S) : Older a (Register.merge a b) := by
  unfold Older
  rw [← merge_assoc, merge_self]

theorem covers_merge_left (a b : S) : Covers (Register.merge a b) a := merge_merge_left a b

theorem covers_merge_right (a b : S) : Covers (Register.merge a b) b := by
  unfold Covers
  rw [merge_assoc, merge_self]

end Crdt
