import Mathlib.Data.List.Basic

/-!
# Fields between separators

A text that puts a separator between fields gives the fields back where they do not have it:
one field off the front (`append_sep_inj`), one off the end (`append_sep_inj_right`), a joined
list (`join_inj`).  `splitOnce` cuts a text at its first separator (`splitOnce_eq_some_iff`).
-/

namespace Delimited

variable {α : Type} {sep : α} {a a' b b' : List α}

theorem append_sep_inj (ha : sep ∉ a) (ha' : sep ∉ a') (h : a ++ sep :: b = a' ++ sep :: b') :
    a = a' ∧ b = b' := by
  induction a generalizing a' with
  | nil =>
    cases a' with
    | nil => exact ⟨rfl, List.tail_eq_of_cons_eq h⟩
    | cons c a' =>
      obtain rfl : sep = c := List.head_eq_of_cons_eq h
      exact absurd List.mem_cons_self ha'
  | cons c a ih =>
    cases a' with
    | nil =>
      obtain rfl : c = sep := List.head_eq_of_cons_eq h
      exact absurd List.mem_cons_self ha
    | cons c' a' =>
      obtain rfl : c = c' := List.head_eq_of_cons_eq h
      have hrest := ih (fun hmem => ha (List.mem_cons_of_mem c hmem))
        (fun hmem => ha' (List.mem_cons_of_mem c hmem)) (List.tail_eq_of_cons_eq h)
      exact ⟨by rw [hrest.1], hrest.2⟩

theorem append_sep_inj_right (hb : sep ∉ b) (hb' : sep ∉ b')
    (h : a ++ sep :: b = a' ++ sep :: b') : a = a' ∧ b = b' := by
  have hrev : b.reverse ++ sep :: a.reverse = b'.reverse ++ sep :: a'.reverse := by
    simpa using congrArg List.reverse h
  obtain ⟨h₁, h₂⟩ := append_sep_inj (by simpa using hb) (by simpa using hb') hrev
  exact ⟨List.reverse_injective h₂, List.reverse_injective h₁⟩

/-- Fields that are not empty and have no separator. -/
def Field (sep : α) (x : List α) : Prop := x ≠ [] ∧ sep ∉ x

section

variable [DecidableEq α]

/-- What stands before the first separator and what after it. -/
def splitOnce (sep : α) : List α → Option (List α × List α)
  | [] => none
  | c :: s => if c = sep then some ([], s) else (splitOnce sep s).map fun x => (c :: x.1, x.2)

theorem splitOnce_eq_some_iff {s : List α} :
    splitOnce sep s = some (a, b) ↔ s = a ++ sep :: b ∧ sep ∉ a := by
  induction s generalizing a with
  | nil => simp [splitOnce]
  | cons c s ih =>
    unfold splitOnce
    split
    · next hc =>
      subst hc
      constructor
      · intro h
        cases h
        exact ⟨rfl, List.not_mem_nil⟩
      · rintro ⟨h, hnot⟩
        cases a with
        | nil => rw [List.tail_eq_of_cons_eq h]
        | cons d a =>
          obtain rfl : c = d := List.head_eq_of_cons_eq h
          exact absurd List.mem_cons_self hnot
    · next hc =>
      constructor
      · intro h
        obtain ⟨⟨a', b'⟩, hsome, heq⟩ := Option.map_eq_some_iff.mp h
        cases heq
        obtain ⟨rfl, hnot⟩ := ih.mp hsome
        refine ⟨rfl, fun hmem => ?_⟩
        rcases List.mem_cons.mp hmem with rfl | hmem
        · exact hc rfl
        · exact hnot hmem
      · rintro ⟨h, hnot⟩
        cases a with
        | nil => exact absurd (List.head_eq_of_cons_eq h) hc
        | cons d a =>
          obtain rfl : c = d := List.head_eq_of_cons_eq h
          rw [ih.mpr ⟨List.tail_eq_of_cons_eq h,
            fun hmem => hnot (List.mem_cons_of_mem c hmem)⟩]
          rfl

theorem splitOnce_eq_none_iff {s : List α} : splitOnce sep s = none ↔ sep ∉ s := by
  induction s with
  | nil => simp [splitOnce]
  | cons c s ih =>
    unfold splitOnce
    split
    · next hc => simp [hc]
    · next hc =>
      rw [Option.map_eq_none_iff, ih, List.mem_cons, not_or]
      exact ⟨fun h => ⟨fun heq => hc heq.symm, h⟩, fun h => h.2⟩

def afterLast (sep : α) : List α → Option (List α)
  | [] => none
  | c :: s => (afterLast sep s).or (if c = sep then some s else none)

theorem afterLast_eq_none_iff {s : List α} : afterLast sep s = none ↔ sep ∉ s := by
  induction s with
  | nil => simp [afterLast]
  | cons c s ih =>
    unfold afterLast
    rw [Option.or_eq_none_iff, ih, List.mem_cons, not_or]
    constructor
    · rintro ⟨hs, hc⟩
      refine ⟨fun heq => ?_, hs⟩
      rw [if_pos heq.symm] at hc
      cases hc
    · rintro ⟨hc, hs⟩
      exact ⟨hs, if_neg fun heq => hc heq.symm⟩

theorem afterLast_eq_some_iff {s : List α} :
    afterLast sep s = some b ↔ ∃ a, s = a ++ sep :: b ∧ sep ∉ b := by
  induction s with
  | nil => simp [afterLast]
  | cons c s ih =>
    unfold afterLast
    rw [Option.or_eq_some_iff, ih]
    constructor
    · rintro (⟨a, rfl, hb⟩ | ⟨hnone, hc⟩)
      · exact ⟨c :: a, rfl, hb⟩
      · split at hc
        · next heq =>
          cases hc
          exact ⟨[], by rw [heq]; rfl, afterLast_eq_none_iff.1 hnone⟩
        · cases hc
    · rintro ⟨a, h, hb⟩
      cases a with
      | nil =>
        cases h
        exact .inr ⟨afterLast_eq_none_iff.2 hb, if_pos rfl⟩
      | cons d a => exact .inl ⟨a, List.tail_eq_of_cons_eq h, hb⟩

end

/-! ## Split, and joined from some field on -/

variable {fields : List (List α)} {x text d : List α} {c : α}

theorem mem_join_of_mem (hx : x ∈ fields) (hc : c ∈ x) : c ∈ [sep].intercalate fields := by
  induction fields with
  | nil => cases hx
  | cons y rest ih =>
    cases rest with
    | nil =>
      obtain rfl := List.mem_singleton.mp hx
      rwa [List.intercalate_singleton]
    | cons z rest =>
      rw [List.intercalate_cons_cons]
      rcases List.mem_cons.mp hx with rfl | hx
      · exact List.mem_append_left _ (List.mem_append_left _ hc)
      · exact List.mem_append_right _ (ih hx)

theorem mem_of_mem_join (hc : c ∈ [sep].intercalate fields) : c = sep ∨ ∃ x ∈ fields, c ∈ x := by
  induction fields with
  | nil => cases hc
  | cons y rest ih =>
    cases rest with
    | nil =>
      rw [List.intercalate_singleton] at hc
      exact .inr ⟨y, List.mem_singleton_self y, hc⟩
    | cons z rest =>
      rw [List.intercalate_cons_cons] at hc
      rcases List.mem_append.mp hc with hc | hc
      · rcases List.mem_append.mp hc with hc | hc
        · exact .inr ⟨y, List.mem_cons_self, hc⟩
        · exact .inl (List.mem_singleton.mp hc)
      · rcases ih hc with heq | ⟨x, hx, hc⟩
        · exact .inl heq
        · exact .inr ⟨x, List.mem_cons_of_mem _ hx, hc⟩

variable [BEq α]

variable [LawfulBEq α]

theorem not_mem_of_mem_splitOn (h : x ∈ text.splitOn sep) : sep ∉ x := by
  induction text generalizing x with
  | nil =>
    obtain rfl := List.mem_singleton.mp h
    exact List.not_mem_nil
  | cons c text ih =>
    unfold List.splitOn at ih h
    rw [List.splitOnP_cons_eq_if_modifyHead] at h
    split at h
    · rcases List.mem_cons.mp h with rfl | h
      · exact List.not_mem_nil
      · exact ih h
    · next hc =>
      cases hfields : List.splitOnP (fun x => x == sep) text with
      | nil => exact absurd hfields (List.splitOnP_ne_nil _ _)
      | cons y rest =>
        rw [hfields, List.modifyHead_cons] at h
        rw [hfields] at ih
        rcases List.mem_cons.mp h with rfl | h
        · intro hmem
          rcases List.mem_cons.mp hmem with rfl | hmem
          · exact hc (beq_self_eq_true _)
          · exact ih List.mem_cons_self hmem
        · exact ih (List.mem_cons_of_mem y h)

theorem mem_of_mem_splitOn (hx : x ∈ text.splitOn sep) (hc : c ∈ x) : c ∈ text := by
  have hjoin : [sep].intercalate (text.splitOn sep) = text := List.intercalate_splitOn sep
  rw [← hjoin]
  exact mem_join_of_mem hx hc

end Delimited
