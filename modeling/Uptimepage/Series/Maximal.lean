import Mathlib

/-!
# The maximal runs of a list

A list cut into the maximal runs of what `p` accepts, each with the gap before it, and what
is left behind the last one (`MaximalRuns`).  Every list has such a cut
(`exists_maximalRuns`); the runs hold what `p` accepts, in its order
(`MaximalRuns.flatMap_run`).
-/

namespace Series

/-- A maximal run and the gap before it. -/
structure Spell (α : Type) where
  gap : List α
  run : List α

variable {α : Type} {p : α → Bool} {l rest : List α} {spells : List (Spell α)} {s : Spell α}

structure MaximalRuns (p : α → Bool) (l : List α) (spells : List (Spell α))
    (rest : List α) : Prop where
  split : l = spells.flatMap (fun s => s.gap ++ s.run) ++ rest
  gaps : ∀ s ∈ spells, ∀ a ∈ s.gap, p a = false
  runs : ∀ s ∈ spells, s.run ≠ [] ∧ ∀ a ∈ s.run, p a = true
  apart : ∀ s ∈ spells.tail, s.gap ≠ []
  rest : ∀ a ∈ rest, p a = false

namespace MaximalRuns

theorem nil : MaximalRuns p [] [] [] := by
  constructor <;> simp

theorem push (h : MaximalRuns p l spells rest) {x : α} (hx : p x = false) :
    MaximalRuns p (l ++ [x]) spells (rest ++ [x]) where
  split := by rw [h.split, List.append_assoc]
  gaps := h.gaps
  runs := h.runs
  apart := h.apart
  rest := by
    intro a ha
    rcases List.mem_append.mp ha with hmem | hmem
    · exact h.rest a hmem
    · exact List.mem_singleton.mp hmem ▸ hx

theorem begin (h : MaximalRuns p l spells rest) (hrest : spells ≠ [] → rest ≠ []) {x : α}
    (hx : p x = true) : MaximalRuns p (l ++ [x]) (spells ++ [⟨rest, [x]⟩]) [] where
  split := by simp [h.split]
  gaps := by
    intro s hs
    rcases List.mem_append.mp hs with hmem | hmem
    · exact h.gaps s hmem
    · exact List.mem_singleton.mp hmem ▸ h.rest
  runs := by
    intro s hs
    rcases List.mem_append.mp hs with hmem | hmem
    · exact h.runs s hmem
    · rw [List.mem_singleton.mp hmem]
      simpa using hx
  apart := by
    intro s hs
    cases hspells : spells with
    | nil => simp [hspells] at hs
    | cons first later =>
      rw [hspells, List.cons_append, List.tail_cons] at hs
      rcases List.mem_append.mp hs with hmem | hmem
      · exact h.apart s (by rwa [hspells])
      · exact List.mem_singleton.mp hmem ▸ hrest (by simp [hspells])
  rest := by simp

theorem extend (h : MaximalRuns p l (spells ++ [s]) []) {x : α} (hx : p x = true) :
    MaximalRuns p (l ++ [x]) (spells ++ [⟨s.gap, s.run ++ [x]⟩]) [] where
  split := by simp [h.split]
  gaps := by
    intro s' hs'
    rcases List.mem_append.mp hs' with hmem | hmem
    · exact h.gaps s' (by simp [hmem])
    · exact List.mem_singleton.mp hmem ▸ h.gaps s (by simp)
  runs := by
    intro s' hs'
    rcases List.mem_append.mp hs' with hmem | hmem
    · exact h.runs s' (by simp [hmem])
    · have hrun := (h.runs s (by simp)).2
      rw [List.mem_singleton.mp hmem]
      refine ⟨by simp, fun a ha => ?_⟩
      rcases List.mem_append.mp ha with hin | hin
      · exact hrun a hin
      · exact List.mem_singleton.mp hin ▸ hx
  apart := by
    intro s' hs'
    have hapart := h.apart
    cases spells with
    | nil => simp at hs'
    | cons first later =>
      rw [List.cons_append, List.tail_cons] at hs' hapart
      rcases List.mem_append.mp hs' with hmem | hmem
      · exact hapart s' (by simp [hmem])
      · exact List.mem_singleton.mp hmem ▸ hapart s (by simp)
  rest := by simp

theorem flatMap_run (h : MaximalRuns p l spells rest) :
    spells.flatMap Spell.run = l.filter p := by
  have hrest : rest.filter p = [] := by
    rw [List.filter_eq_nil_iff]
    intro a ha
    simp [h.rest a ha]
  rw [h.split, List.filter_append, hrest, List.append_nil, List.filter_flatMap]
  refine List.flatMap_congr fun s hs => ?_
  have hgap : s.gap.filter p = [] := by
    rw [List.filter_eq_nil_iff]
    intro a ha
    simp [h.gaps s hs a ha]
  rw [List.filter_append, hgap, List.nil_append, List.filter_eq_self.mpr (h.runs s hs).2]

theorem sum_length_run (h : MaximalRuns p l spells rest) :
    (spells.map fun s => s.run.length).sum = (l.filter p).length := by
  rw [← h.flatMap_run, List.length_flatMap]

end MaximalRuns

theorem exists_maximalRuns (p : α → Bool) (l : List α) :
    ∃ spells rest, MaximalRuns p l spells rest := by
  induction l using List.reverseRecOn with
  | nil => exact ⟨[], [], MaximalRuns.nil⟩
  | append_singleton l x ih =>
    obtain ⟨spells, rest, h⟩ := ih
    cases hx : p x with
    | false => exact ⟨_, _, h.push hx⟩
    | true =>
      by_cases hrest : spells ≠ [] → rest ≠ []
      · exact ⟨_, _, h.begin hrest hx⟩
      · obtain ⟨hspells, hnil⟩ := Classical.not_imp.mp hrest
        rw [not_not.mp hnil] at h
        rw [← List.dropLast_append_getLast hspells] at h
        exact ⟨_, _, h.extend hx⟩

end Series
