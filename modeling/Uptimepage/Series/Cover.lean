import Mathlib.Data.Int.Interval

/-!
# A sum of sizes against the size of a union

Finite sets listed one after another, seen through a window `u`.  Adding up their sizes
counts at least what they cover of the window (`card_covered_le`), and exactly that when
they stay inside the window and no two of them meet (`card_covered_eq_iff`).
-/

namespace Uptimepage.Cover

/-- From `a` to `b`, `b` left out. -/
def span {β : Type} [LinearOrder β] [LocallyFiniteOrder β] (a b : β) : Finset β := Finset.Ico a b

@[simp] theorem mem_span {β : Type} [LinearOrder β] [LocallyFiniteOrder β] {a b x : β} :
    x ∈ span a b ↔ a ≤ x ∧ x < b := Finset.mem_Ico

theorem card_span (a b : Int) : (span a b).card = (b - a).toNat := Int.card_Ico a b

variable {α : Type} [DecidableEq α] (u c : Finset α) (cs : List (Finset α))

/-- What the sets cover of the window. -/
def covered (u : Finset α) (cs : List (Finset α)) : Finset α :=
  u.filter fun a => ∃ c ∈ cs, a ∈ c

theorem covered_nil : covered u ([] : List (Finset α)) = ∅ := by
  simp [covered]

theorem covered_cons : covered u (c :: cs) = u ∩ c ∪ covered u cs := by
  ext a
  simp only [covered, List.mem_cons, exists_eq_or_imp, Finset.mem_filter, Finset.mem_union,
    Finset.mem_inter]
  tauto

theorem covered_subset : covered u cs ⊆ u := Finset.filter_subset _ _

theorem card_covered_cons_le : (covered u (c :: cs)).card ≤ c.card + (covered u cs).card := by
  rw [covered_cons]
  calc (u ∩ c ∪ covered u cs).card ≤ (u ∩ c).card + (covered u cs).card :=
        Finset.card_union_le _ _
    _ ≤ c.card + (covered u cs).card :=
        Nat.add_le_add_right (Finset.card_le_card Finset.inter_subset_right) _

theorem card_covered_le : (covered u cs).card ≤ (cs.map Finset.card).sum := by
  induction cs with
  | nil => simp [covered_nil]
  | cons c cs ih =>
    have h := card_covered_cons_le u c cs
    rw [List.map_cons, List.sum_cons]
    omega

variable {u c cs}

theorem card_covered_cons_eq_iff :
    (covered u (c :: cs)).card = c.card + (covered u cs).card ↔
      c ⊆ u ∧ Disjoint c (covered u cs) := by
  rw [covered_cons]
  have hunion := Finset.card_union_add_card_inter (u ∩ c) (covered u cs)
  have hle : (u ∩ c).card ≤ c.card := Finset.card_le_card Finset.inter_subset_right
  constructor
  · intro h
    have hinside : u ∩ c = c := by
      apply Finset.eq_of_subset_of_card_le Finset.inter_subset_right
      omega
    rw [hinside] at hunion h
    refine ⟨Finset.inter_eq_right.mp hinside, ?_⟩
    rw [Finset.disjoint_iff_inter_eq_empty, ← Finset.card_eq_zero]
    omega
  · rintro ⟨hsub, hdisj⟩
    rw [Finset.inter_eq_right.mpr hsub]
    exact Finset.card_union_of_disjoint hdisj

theorem card_covered_eq_iff :
    (covered u cs).card = (cs.map Finset.card).sum ↔
      (∀ c ∈ cs, c ⊆ u) ∧ cs.Pairwise Disjoint := by
  induction cs with
  | nil => simp [covered_nil]
  | cons c cs ih =>
    have hstep := card_covered_cons_le u c cs
    have hrest := card_covered_le u cs
    rw [List.map_cons, List.sum_cons, List.forall_mem_cons, List.pairwise_cons]
    constructor
    · intro h
      obtain ⟨hin, hpair⟩ := ih.mp (by omega)
      have hfull : (covered u (c :: cs)).card = c.card + (covered u cs).card := by omega
      obtain ⟨hsub, hdisj⟩ := card_covered_cons_eq_iff.1 hfull
      refine ⟨⟨hsub, hin⟩, fun c' hc' => ?_, hpair⟩
      apply hdisj.mono_right
      intro a ha
      exact Finset.mem_filter.mpr ⟨hin c' hc' ha, c', hc', ha⟩
    · rintro ⟨⟨hsub, hin⟩, hdisj, hpair⟩
      have hall : Disjoint c (covered u cs) := by
        rw [Finset.disjoint_left]
        intro a ha hcov
        obtain ⟨-, c', hc', ha'⟩ := Finset.mem_filter.mp hcov
        exact Finset.disjoint_left.mp (hdisj c' hc') ha ha'
      rw [card_covered_cons_eq_iff.2 ⟨hsub, hall⟩, ih.mpr ⟨hin, hpair⟩]

end Uptimepage.Cover
