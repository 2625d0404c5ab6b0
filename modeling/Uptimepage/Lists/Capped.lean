import Mathlib.Data.List.Nodup
import Mathlib.Data.List.Perm.Subperm

/-!
# At most so many of a list

`capped n a l` is at most `n` of `l`, with `a` in front if it is in `l` and some are left out.
-/

namespace Capped

variable {α : Type} {n : Nat} {a : α} {l s t : List α} {p : α → Bool}

theorem subset_of_length_le (hs : s.Nodup) (hsub : s ⊆ t) (hlen : t.length ≤ s.length) : t ⊆ s :=
  ((List.subperm_of_subset hs hsub).perm_of_length_le hlen).symm.subset

theorem take_filter_of_all {k : Nat} (h : ∀ x ∈ l.take k, p x = true) :
    (l.filter p).take k = l.take k := by
  induction l generalizing k with
  | nil => rfl
  | cons x l ih =>
    cases k with
    | zero => rfl
    | succ k =>
      rw [List.take_succ_cons] at h
      rw [List.filter_cons_of_pos (h x List.mem_cons_self), List.take_succ_cons,
        List.take_succ_cons, ih fun y hy => h y (List.mem_cons_of_mem x hy)]

variable [DecidableEq α]

def capped (n : Nat) (a : α) (l : List α) : List α :=
  if l.length ≤ n then l
  else
    let lead := if a ∈ l then [a] else []
    lead ++ (l.filter (· != a)).take (n - lead.length)

theorem capped_of_le (h : l.length ≤ n) : capped n a l = l := if_pos h

theorem capped_of_lt (h : n < l.length) : capped n a l =
    (if a ∈ l then [a] else []) ++
      (l.filter (· != a)).take (n - (if a ∈ l then [a] else []).length) :=
  if_neg (by omega)

theorem capped_subset : capped n a l ⊆ l := by
  intro x hx
  unfold capped at hx
  split at hx
  · exact hx
  · rcases List.mem_append.mp hx with hx | hx
    · split at hx
      · next ha =>
        rw [List.mem_singleton.mp hx]
        exact ha
      · cases hx
    · exact List.mem_of_mem_filter (List.mem_of_mem_take hx)

theorem capped_nodup (h : l.Nodup) : (capped n a l).Nodup := by
  unfold capped
  split
  · exact h
  · apply List.Nodup.append
    · split
      · exact List.nodup_singleton a
      · exact List.nodup_nil
    · exact (h.filter _).sublist (List.take_sublist _ _)
    · intro x hx hx'
      have hne := List.of_mem_filter (List.mem_of_mem_take hx')
      split at hx
      · rw [List.mem_singleton.mp hx] at hne
        simp at hne
      · cases hx

theorem length_filter_ne (h : l.Nodup) :
    (l.filter (· != a)).length + (if a ∈ l then [a] else []).length = l.length := by
  split
  · next ha =>
    have hpos := List.length_pos_of_mem ha
    rw [← h.erase_eq_filter, List.length_erase_of_mem ha, List.length_singleton]
    omega
  · next ha =>
    rw [List.filter_eq_self.mpr, List.length_nil, Nat.add_zero]
    intro x hx
    have hne : x ≠ a := by
      rintro rfl
      exact ha hx
    simpa using hne

theorem length_capped (hn : 0 < n) (h : l.Nodup) : (capped n a l).length = min n l.length := by
  unfold capped
  split
  · omega
  · have hlen := length_filter_ne (a := a) h
    have hlead : (if a ∈ l then [a] else []).length ≤ 1 := by
      split <;> simp
    rw [List.length_append, List.length_take]
    omega

theorem capped_filter_of_all (hlong : n < l.length) (hlong' : n < (l.filter p).length)
    (h : ∀ x ∈ capped n a l, p x = true) : capped n a (l.filter p) = capped n a l := by
  rw [capped_of_lt hlong] at h ⊢
  rw [capped_of_lt hlong']
  have hlead : a ∈ l.filter p ↔ a ∈ l := by
    rw [List.mem_filter, and_iff_left_iff_imp]
    intro ha
    apply h
    rw [if_pos ha]
    exact List.mem_append_left _ (List.mem_singleton_self a)
  simp only [hlead]
  rw [List.filter_comm, take_filter_of_all]
  intro x hx
  exact h x (List.mem_append_right _ hx)

theorem capped_filter_iff (hn : 0 < n) (hnodup : l.Nodup) :
    (∀ x, x ∈ (capped n a l).filter p ↔ x ∈ capped n a (l.filter p)) ↔
      (∀ x ∈ l, p x = true → x ∈ capped n a l) ∨ ∀ x ∈ capped n a l, p x = true := by
  have hlen := length_capped (a := a) hn hnodup
  have hlen' := length_capped (a := a) hn (hnodup.filter p)
  constructor
  · intro h
    by_contra hnot
    push Not at hnot
    obtain ⟨⟨x, hx, hpx, hout⟩, y, hy, hpy⟩ := hnot
    -- something is kept that is not picked, so not all the room is taken
    have hfewer : ((capped n a l).filter p).length < (capped n a l).length :=
      List.length_filter_lt_length_iff_exists.mpr ⟨y, hy, by simpa using hpy⟩
    have hle := (List.subperm_of_subset (capped_nodup (n := n) (a := a) (hnodup.filter p))
      fun z hz => (h z).mpr hz).length_le
    have hall : capped n a (l.filter p) = l.filter p := capped_of_le (by omega)
    apply hout
    have hmem := (h x).mpr (by rw [hall]; exact List.mem_filter.mpr ⟨hx, hpx⟩)
    exact List.mem_of_mem_filter hmem
  · rintro (h | h)
    · have hle := (List.subperm_of_subset (hnodup.filter p)
        fun z hz => h z (List.mem_of_mem_filter hz) (List.of_mem_filter hz)).length_le
      rw [capped_of_le (by omega : (l.filter p).length ≤ n)]
      intro x
      rw [List.mem_filter, List.mem_filter]
      exact ⟨fun hx => ⟨capped_subset hx.1, hx.2⟩, fun hx => ⟨h x hx.1 hx.2, hx.2⟩⟩
    · have hpicked : (capped n a l).filter p = capped n a l := List.filter_eq_self.mpr h
      have hsub : capped n a l ⊆ l.filter p :=
        fun x hx => List.mem_filter.mpr ⟨capped_subset hx, h x hx⟩
      rw [hpicked]
      by_cases hshort : (l.filter p).length ≤ n
      · rw [capped_of_le hshort]
        have hle := List.length_filter_le p l
        intro x
        exact ⟨fun hx => hsub hx,
          fun hx => subset_of_length_le (capped_nodup hnodup) hsub (by omega) hx⟩
      · have hle := List.length_filter_le p l
        intro x
        rw [capped_filter_of_all (by omega) (by omega) h]

theorem capped_only_iff (hn : 0 < n) (hnodup : l.Nodup) (hne : l ≠ []) :
    (∀ x, x ∈ capped n a l ↔ x = a) ↔ (∀ x ∈ l, x = a) ∨ n = 1 ∧ a ∈ l := by
  have hlen := length_capped (a := a) hn hnodup
  constructor
  · intro h
    have ha : a ∈ l := capped_subset ((h a).mpr rfl)
    have hone : (capped n a l).length ≤ 1 :=
      (List.subperm_of_subset (capped_nodup hnodup)
        fun x hx => List.mem_singleton.mpr ((h x).mp hx)).length_le
    by_cases hle : l.length ≤ n
    · left
      intro x hx
      rw [← capped_of_le hle] at hx
      exact (h x).mp hx
    · exact .inr ⟨by omega, ha⟩
  · rintro (h | ⟨rfl, ha⟩)
    · have ha : a ∈ capped n a l := by
        have hpos : 0 < (capped n a l).length := by
          have := List.length_pos_iff.mpr hne
          omega
        obtain ⟨y, hy⟩ := List.exists_mem_of_length_pos hpos
        rwa [h y (capped_subset hy)] at hy
      intro x
      refine ⟨fun hx => h x (capped_subset hx), ?_⟩
      rintro rfl
      exact ha
    · intro x
      by_cases hle : l.length ≤ 1
      · rw [capped_of_le hle]
        have hsub := subset_of_length_le (List.nodup_singleton a)
          (fun x hx => List.mem_singleton.mp hx ▸ ha) hle
        refine ⟨fun hx => List.mem_singleton.mp (hsub hx), ?_⟩
        rintro rfl
        exact ha
      · rw [capped_of_lt (by omega), if_pos ha]
        simp

end Capped
