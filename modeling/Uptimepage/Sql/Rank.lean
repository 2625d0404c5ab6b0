import Mathlib.Data.List.MinMax
import Mathlib.Data.List.Sort

/-!
# Ranks

The rows of a query that come first in an order can be taken from the sorted list, or asked for
one by one: a row is among the first `k` exactly if at most `k` rows, itself included, come no
later (`mem_take_iff_rank`).  The count needs no sorting and no second pass, which is how SQL
writes it.  `rowNumber` is the rank among the rows of one part.
-/

namespace Sql

variable {α κ : Type} [LinearOrder κ] {key : α → κ}

/-- How many rows come no later than `a`. -/
def rank (key : α → κ) (l : List α) (a : α) : Nat := l.countP fun b => decide (key b ≤ key a)

variable {l : List α} {a : α}

theorem rank_perm {l' : List α} (h : l.Perm l') (a : α) : rank key l a = rank key l' a :=
  h.countP_eq _

theorem rank_le_length (l : List α) (a : α) : rank key l a ≤ l.length := List.countP_le_length

theorem exists_rank_eq_length (h : l ≠ []) : ∃ a ∈ l, rank key l a = l.length := by
  cases hlast : l.argmax key with
  | none => exact absurd (List.argmax_eq_none.mp hlast) h
  | some a =>
    refine ⟨a, List.argmax_mem hlast, ?_⟩
    unfold rank
    rw [List.countP_eq_length]
    intro b hb
    exact decide_eq_true (List.le_of_mem_argmax hb hlast)

theorem mem_take_iff_rank_of_sorted (hl : l.Pairwise fun a b => key a < key b) (ha : a ∈ l)
    (k : Nat) : a ∈ l.take k ↔ rank key l a ≤ k := by
  induction l generalizing k with
  | nil => cases ha
  | cons b l ih =>
    obtain ⟨hb, hl⟩ := List.pairwise_cons.mp hl
    unfold rank
    rw [List.countP_cons]
    rcases List.mem_cons.mp ha with rfl | ha
    · -- nothing after the head comes before it
      have hzero : (l.countP fun b => decide (key b ≤ key a)) = 0 := by
        rw [List.countP_eq_zero]
        intro c hc
        simpa using hb c hc
      rw [hzero]
      cases k with
      | zero => simp
      | succ k => simp
    · have hlt := hb a ha
      have hne : a ≠ b := by
        rintro rfl
        exact lt_irrefl _ hlt
      rw [if_pos (decide_eq_true hlt.le)]
      cases k with
      | zero => simp
      | succ k =>
        have ih := ih hl ha k
        unfold rank at ih
        rw [List.take_succ_cons, List.mem_cons, ih]
        constructor
        · rintro (heq | hle)
          · exact absurd heq hne
          · omega
        · intro hle
          right
          omega

/-- The rows, first to last. -/
def inOrder (key : α → κ) (l : List α) : List α := l.insertionSort fun a b => key a ≤ key b

theorem inOrder_perm (l : List α) : (inOrder key l).Perm l :=
  List.perm_insertionSort _ l

theorem inOrder_sorted (hnodup : (l.map key).Nodup) :
    (inOrder key l).Pairwise fun a b => key a < key b := by
  have hle : (inOrder key l).Pairwise fun a b => key a ≤ key b :=
    List.pairwise_insertionSort (fun a b => key a ≤ key b) l
  have hne : ((inOrder key l).map key).Nodup := ((inOrder_perm l).map key).nodup_iff.mpr hnodup
  have hne : (inOrder key l).Pairwise fun a b => key a ≠ key b := List.pairwise_map.mp hne
  exact hle.imp₂ (fun _ _ hle hne => lt_of_le_of_ne hle hne) hne

theorem mem_take_iff_rank (hnodup : (l.map key).Nodup) (ha : a ∈ l) (k : Nat) :
    a ∈ (inOrder key l).take k ↔ rank key l a ≤ k := by
  have hmem : a ∈ inOrder key l := (inOrder_perm l).mem_iff.mpr ha
  rw [mem_take_iff_rank_of_sorted (inOrder_sorted hnodup) hmem k, rank_perm (inOrder_perm l) a]

theorem countP_rank_le (hnodup : (l.map key).Nodup) (k : Nat) :
    l.countP (fun a => decide (rank key l a ≤ k)) ≤ k := by
  have hsub : l.filter (fun a => decide (rank key l a ≤ k)) ⊆ (inOrder key l).take k := by
    intro a ha
    obtain ⟨ha, hrank⟩ := List.mem_filter.mp ha
    exact (mem_take_iff_rank hnodup ha k).mpr (of_decide_eq_true hrank)
  have hdistinct := (List.Nodup.of_map key hnodup).filter fun a => decide (rank key l a ≤ k)
  have hle := (List.subperm_of_subset hdistinct hsub).length_le
  rw [List.countP_eq_length_filter]
  exact hle.trans (List.length_take_le k _)

theorem le_countP_rank (hnodup : (l.map key).Nodup) {k : Nat} (h : k < rank key l a) :
    k ≤ l.countP fun b => decide (rank key l b ≤ k ∧ key b < key a) := by
  have hsub : (inOrder key l).take k ⊆
      l.filter fun b => decide (rank key l b ≤ k ∧ key b < key a) := by
    intro b hb
    have hmem := (inOrder_perm l).mem_iff.mp (List.mem_of_mem_take hb)
    have hrank := (mem_take_iff_rank hnodup hmem k).mp hb
    refine List.mem_filter.mpr ⟨hmem, decide_eq_true ⟨hrank, ?_⟩⟩
    by_contra hge
    have hmono : rank key l a ≤ rank key l b :=
      List.countP_mono_left fun c _ hc =>
        decide_eq_true ((of_decide_eq_true hc).trans (not_lt.mp hge))
    omega
  have hdistinct : ((inOrder key l).take k).Nodup :=
    ((inOrder_perm l).nodup_iff.mpr (List.Nodup.of_map key hnodup)).sublist (List.take_sublist _ _)
  have hle := (List.subperm_of_subset hdistinct hsub).length_le
  have hlength := h.le.trans (rank_le_length l a)
  rw [List.length_take, (inOrder_perm l).length_eq, min_eq_left hlength] at hle
  rwa [List.countP_eq_length_filter]

/-! ## Ranks in a part -/

/-- `row_number() OVER (PARTITION BY part ORDER BY key)`, with no two rows of one key. -/
def rowNumber {β : Type} [DecidableEq β] (part : α → β) (key : α → κ) (l : List α) (a : α) : Nat :=
  rank key (l.filter fun b => part b = part a) a

section RowNumber
variable {β : Type} [DecidableEq β] {part : α → β}

theorem rowNumber_le_countP (l : List α) (a : α) :
    rowNumber part key l a ≤ l.countP fun b => part b = part a := by
  rw [List.countP_eq_length_filter]
  exact rank_le_length _ a

theorem rowNumber_le_length (l : List α) (a : α) : rowNumber part key l a ≤ l.length :=
  (rowNumber_le_countP l a).trans List.countP_le_length

theorem rowNumber_eq_rank {l : List α} {a : α} (h : ∀ b ∈ l, part b = part a) :
    rowNumber part key l a = rank key l a := by
  unfold rowNumber
  rw [List.filter_eq_self.mpr fun b hb => decide_eq_true (h b hb)]

theorem countP_rowNumber_le {l : List α} (hnodup : (l.map key).Nodup) (b : β) (k : Nat) :
    l.countP (fun a => decide (part a = b ∧ rowNumber part key l a ≤ k)) ≤ k := by
  have hpart : ((l.filter fun a => part a = b).map key).Nodup :=
    hnodup.sublist (List.filter_sublist.map key)
  have hle := countP_rank_le hpart k
  rw [List.countP_filter] at hle
  refine le_trans (List.countP_mono_left ?_) hle
  intro a _ ha
  obtain ⟨hb, hrank⟩ := of_decide_eq_true ha
  unfold rowNumber at hrank
  rw [hb] at hrank
  simp only [hb, hrank, decide_true, Bool.and_self]

theorem le_countP_rowNumber {l : List α} (hnodup : (l.map key).Nodup) {a : α} {k : Int}
    (h : k < rowNumber part key l a) :
    k ≤ l.countP fun b =>
      decide (part b = part a ∧ (rowNumber part key l b : Int) ≤ k ∧ key b < key a) := by
  have hpart : ((l.filter fun b => part b = part a).map key).Nodup :=
    hnodup.sublist (List.filter_sublist.map key)
  rcases lt_or_ge k 0 with hneg | hpos
  · omega
  · obtain ⟨n, rfl⟩ := Int.eq_ofNat_of_zero_le hpos
    have hle := le_countP_rank hpart (Int.ofNat_lt.mp h)
    rw [List.countP_filter] at hle
    refine Int.ofNat_le.mpr (hle.trans (List.countP_mono_left fun b _ hb => ?_))
    obtain ⟨hrank, hb⟩ := Bool.and_eq_true_iff.mp hb
    obtain ⟨hrank, hlt⟩ := of_decide_eq_true hrank
    have hb := of_decide_eq_true hb
    refine decide_eq_true ⟨hb, ?_, hlt⟩
    unfold rowNumber
    rw [hb]
    exact Int.ofNat_le.mpr hrank

end RowNumber

end Sql
