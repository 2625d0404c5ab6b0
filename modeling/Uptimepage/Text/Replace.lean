import Mathlib.Data.List.Infix

/-!
# Replacing a pattern

`replace pat by_` puts `by_` in the place of each occurrence of `pat`, from left to right.
`Replaced` is what there is to say of it afterwards, with no word of which occurrences: pieces
were copied and pieces were put in place.  Its lemmas read a result backwards (`Replaced.cut`,
`Replaced.copied`).
-/

namespace Text

section

variable {α : Type} [DecidableEq α]

/-- `skip` counts what is left of the occurrence that was put in place last. -/
def replaceFrom (pat by_ : List α) : Nat → List α → List α
  | _, [] => []
  | skip + 1, _ :: rest => replaceFrom pat by_ skip rest
  | 0, c :: rest =>
    if pat.isPrefixOf (c :: rest) then by_ ++ replaceFrom pat by_ (pat.length - 1) rest
    else c :: replaceFrom pat by_ 0 rest

def replace (pat by_ s : List α) : List α := replaceFrom pat by_ 0 s

/-- `pat` occurs in `s`. -/
def contains (pat s : List α) : Bool := s.tails.any pat.isPrefixOf

theorem contains_iff {pat s : List α} : contains pat s = true ↔ pat <:+: s := by
  unfold contains
  rw [List.any_eq_true, List.infix_iff_prefix_suffix]
  constructor
  · rintro ⟨t, ht, hpre⟩
    exact ⟨t, List.isPrefixOf_iff_prefix.mp hpre, (List.mem_tails t s).mp ht⟩
  · rintro ⟨t, hpre, hsuf⟩
    exact ⟨t, (List.mem_tails t s).mpr hsuf, List.isPrefixOf_iff_prefix.mpr hpre⟩

end

/-- The second list is the first, with some occurrences of `pat` replaced by `by_`. -/
inductive Replaced {α : Type} (pat by_ : List α) : List α → List α → Prop
  | nil : Replaced pat by_ [] []
  | copy (c : α) {s t : List α} : Replaced pat by_ s t → Replaced pat by_ (c :: s) (c :: t)
  | put {s t : List α} : Replaced pat by_ s t → Replaced pat by_ (pat ++ s) (by_ ++ t)

theorem replaceFrom_length {α : Type} [DecidableEq α] (pat by_ s rest : List α) :
    replaceFrom pat by_ s.length (s ++ rest) = replaceFrom pat by_ 0 rest := by
  induction s with
  | nil => rfl
  | cons c s ih => exact ih

theorem replaced_replace {α : Type} [DecidableEq α] {pat : List α} (hpat : pat ≠ [])
    (by_ s : List α) :
    Replaced pat by_ s (replace pat by_ s) := by
  obtain ⟨p, pat, rfl⟩ := List.exists_cons_of_ne_nil hpat
  suffices h : ∀ n (s : List α), s.length = n →
      Replaced (p :: pat) by_ s (replaceFrom (p :: pat) by_ 0 s) from h _ s rfl
  intro n
  induction n using Nat.strong_induction_on with
  | _ n ih =>
    intro s hn
    cases s with
    | nil => exact .nil
    | cons c rest =>
      simp only [replaceFrom]
      split
      · next hpre =>
        obtain ⟨rest', hrest⟩ := List.isPrefixOf_iff_prefix.mp hpre
        obtain ⟨rfl, rfl⟩ : p = c ∧ pat ++ rest' = rest := List.cons.inj hrest
        rw [List.length_cons, Nat.add_sub_cancel, replaceFrom_length]
        refine .put (ih rest'.length ?_ rest' rfl)
        simp at hn
        omega
      · refine .copy c (ih rest.length ?_ rest rfl)
        simp at hn
        omega

namespace Replaced

variable {α : Type} {pat by_ s t u v w : List α}

theorem cut (h : Replaced pat by_ s (u ++ v)) :
    (∃ s₁ s₂, s = s₁ ++ s₂ ∧ Replaced pat by_ s₁ u ∧ Replaced pat by_ s₂ v) ∨
      ∃ b₁ b₂, by_ = b₁ ++ b₂ ∧ b₁ ≠ [] ∧ b₂ ≠ [] ∧ b₁ <:+ u ∧ b₂ <+: v := by
  generalize ht : u ++ v = t at h
  induction h generalizing u with
  | nil =>
    obtain ⟨rfl, rfl⟩ := List.append_eq_nil_iff.mp ht
    exact .inl ⟨[], [], rfl, .nil, .nil⟩
  | @copy c s t h ih =>
    cases u with
    | nil =>
      obtain rfl : v = c :: t := ht
      exact .inl ⟨[], c :: s, rfl, .nil, .copy c h⟩
    | cons c' u =>
      obtain ⟨rfl, htail⟩ := List.cons.inj ht
      rcases ih htail with ⟨s₁, s₂, rfl, h₁, h₂⟩ | ⟨b₁, b₂, hb, hb₁, hb₂, hu, hv⟩
      · exact .inl ⟨c' :: s₁, s₂, rfl, .copy c' h₁, h₂⟩
      · exact .inr ⟨b₁, b₂, hb, hb₁, hb₂, hu.trans (List.suffix_cons c' u), hv⟩
  | @put s t h ih =>
    rcases List.append_eq_append_iff.mp ht with ⟨b₂, hb, rfl⟩ | ⟨u', rfl, ht⟩
    · by_cases hb₁ : u = []
      · subst hb₁
        obtain rfl : by_ = b₂ := hb
        exact .inl ⟨[], pat ++ s, rfl, .nil, .put h⟩
      · by_cases hb₂ : b₂ = []
        · subst hb₂
          refine .inl ⟨pat, s, rfl, ?_, h⟩
          have hput : Replaced pat by_ (pat ++ []) (by_ ++ []) := .put .nil
          rw [List.append_nil] at hb
          rw [List.append_nil, List.append_nil] at hput
          rw [← hb]
          exact hput
        · exact .inr ⟨u, b₂, hb, hb₁, hb₂, List.suffix_rfl, List.prefix_append b₂ t⟩
    · have htail : u' ++ v = t := by
        rw [List.append_assoc] at ht
        exact List.append_cancel_left ht
      rcases ih htail with ⟨s₁, s₂, rfl, h₁, h₂⟩ | ⟨b₁, b₂, hb, hb₁, hb₂, hu, hv⟩
      · exact .inl ⟨pat ++ s₁, s₂, (List.append_assoc pat s₁ s₂).symm, .put h₁, h₂⟩
      · exact .inr ⟨b₁, b₂, hb, hb₁, hb₂, hu.trans (List.suffix_append by_ u'), hv⟩

theorem copied (hby : by_ ≠ []) (hw : ∀ c ∈ w, c ∉ by_) (h : Replaced pat by_ s (w ++ v)) :
    ∃ s', s = w ++ s' ∧ Replaced pat by_ s' v := by
  induction w generalizing s with
  | nil => exact ⟨s, rfl, h⟩
  | cons c w ih =>
    generalize ht : c :: w ++ v = t at h
    cases h with
    | nil => cases ht
    | copy c' h =>
      obtain ⟨rfl, rfl⟩ := List.cons.inj ht
      obtain ⟨s', rfl, h'⟩ := ih (fun c hc => hw c (List.mem_cons_of_mem _ hc)) h
      exact ⟨s', rfl, h'⟩
    | put h =>
      obtain ⟨b, by_, rfl⟩ := List.exists_cons_of_ne_nil hby
      obtain ⟨rfl, -⟩ := List.cons.inj ht
      exact absurd List.mem_cons_self (hw c List.mem_cons_self)

protected theorem refl (pat by_ s : List α) : Replaced pat by_ s s := by
  induction s with
  | nil => exact .nil
  | cons c s ih => exact .copy c ih

theorem pair {b : α} (h : Replaced pat [b, b] s (b :: b :: v)) :
    (∃ s', s = b :: b :: s' ∧ Replaced pat [b, b] s' v) ∨
      (∃ s', s = pat ++ s' ∧ Replaced pat [b, b] s' v) ∨
        ∃ s' v', s = b :: (pat ++ s') ∧ v = b :: v' ∧ Replaced pat [b, b] s' v' := by
  generalize ht : b :: b :: v = t at h
  cases h with
  | nil => cases ht
  | copy c h =>
    obtain ⟨rfl, htail⟩ := List.cons.inj ht
    cases h with
    | nil => cases htail
    | copy c' h =>
      obtain ⟨rfl, rfl⟩ := List.cons.inj htail
      exact .inl ⟨_, rfl, h⟩
    | put h =>
      obtain ⟨-, hv⟩ := List.cons.inj htail
      exact .inr (.inr ⟨_, _, rfl, hv, h⟩)
  | put h =>
    obtain ⟨-, htail⟩ := List.cons.inj ht
    obtain ⟨-, rfl⟩ := List.cons.inj htail
    exact .inr (.inl ⟨_, rfl, h⟩)

theorem nil_left (hpat : pat ≠ []) (h : Replaced pat by_ s t) (hs : s = []) : t = [] := by
  cases h with
  | nil => rfl
  | copy => cases hs
  | put => exact absurd (List.append_eq_nil_iff.mp hs).1 hpat

theorem getLast? (hpat : pat ≠ []) (h : Replaced pat by_ s t) {c : α} (hc : pat.getLast? ≠ some c)
    (hs : s.getLast? = some c) : t.getLast? = some c := by
  induction h with
  | nil => cases hs
  | @copy c' s t h ih =>
    rw [List.getLast?_cons] at hs ⊢
    cases hlast : s.getLast? with
    | none =>
      rw [h.nil_left hpat (List.getLast?_eq_none_iff.mp hlast)]
      rw [hlast] at hs
      exact hs
    | some d =>
      rw [hlast] at hs
      rw [ih (hlast.trans hs)]
      rfl
  | @put s t h ih =>
    rw [List.getLast?_append] at hs ⊢
    cases hlast : s.getLast? with
    | none =>
      rw [hlast] at hs
      exact absurd hs hc
    | some d =>
      rw [hlast] at hs
      rw [ih (hlast.trans hs)]
      rfl

end Replaced

end Text
