import Mathlib

/-!
# Slots

A list in which tasks are put one after the other and replaced in place, never taken out:
what a slot holds after each.
-/

namespace Async

variable {α : Type}

theorem getElem?_set_cases {l : List α} {i j : Nat} {a b : α}
    (h : (l.set i a)[j]? = some b) : (j = i ∧ b = a) ∨ (j ≠ i ∧ l[j]? = some b) := by
  rw [List.getElem?_set] at h
  by_cases hij : i = j
  · subst hij
    by_cases hlt : i < l.length
    · simp only [↓reduceIte, hlt, Option.some.injEq] at h
      exact .inl ⟨rfl, h.symm⟩
    · simp [hlt] at h
  · rw [if_neg hij] at h
    exact .inr ⟨fun e => hij e.symm, h⟩

theorem getElem?_snoc_cases {l : List α} {j : Nat} {a b : α}
    (h : (l ++ [a])[j]? = some b) : l[j]? = some b ∨ (j = l.length ∧ b = a) := by
  rw [List.getElem?_append] at h
  by_cases hlt : j < l.length
  · rw [if_pos hlt] at h
    exact .inl h
  · rw [if_neg hlt] at h
    have hj : j - l.length = 0 := by
      have := (List.getElem?_eq_some_iff.mp h).1
      simpa using this
    rw [hj] at h
    exact .inr ⟨by omega, by simpa using h.symm⟩

end Async
