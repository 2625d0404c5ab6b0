import Mathlib.Data.List.Sort

/-!
# Tables as lists of rows

The three statements a store is written with, over rows of any type: `update` is an
`UPDATE … WHERE`, `firstBy` a `SELECT … ORDER BY … LIMIT`, and an `INSERT` is `++ [r]`.
-/

namespace Table

variable {α β : Type}

/-- `UPDATE … SET f WHERE p`. -/
def update (p : α → Bool) (f : α → α) (l : List α) : List α :=
  l.map fun r => if p r then f r else r

/-- `ORDER BY key ASC LIMIT n`. -/
def firstBy (key : α → Int) (n : Nat) (l : List α) : List α :=
  (l.insertionSort fun a b => key a ≤ key b).take n

variable {l : List α} {r : α} {p q : α → Bool} {f : α → α}

theorem mem_firstBy {key : α → Int} {n : Nat} (h : r ∈ firstBy key n l) : r ∈ l :=
  (List.mem_insertionSort _).mp (List.mem_of_mem_take h)

theorem mem_update (h : r ∈ update p f l) : r ∈ l ∨ ∃ r₀ ∈ l, p r₀ = true ∧ r = f r₀ := by
  obtain ⟨r₀, hr₀, rfl⟩ := List.mem_map.mp h
  cases hp : p r₀ with
  | true => exact .inr ⟨r₀, hr₀, hp, by simp⟩
  | false => exact .inl (by simpa using hr₀)

theorem find?_update (hf : ∀ r, q (f r) = q r) (l : List α) :
    (update p f l).find? q = (l.find? q).map fun r => if p r then f r else r := by
  induction l with
  | nil => rfl
  | cons r l ih =>
    have hq : q (if p r then f r else r) = q r := by split <;> simp [hf]
    simp only [update, List.map_cons, List.find?_cons, hq] at ih ⊢
    cases q r with
    | true => rfl
    | false => exact ih

theorem find?_update_self (h : l.find? p = some r) (hf : p (f r) = true) :
    (update p f l).find? p = some (f r) := by
  induction l with
  | nil => simp at h
  | cons r₀ l ih =>
    simp only [update, List.map_cons, List.find?_cons] at h ih ⊢
    cases hp : p r₀ with
    | true =>
      obtain rfl : r₀ = r := by simpa [hp] using h
      simp [hf]
    | false => simpa [hp] using ih (by simpa [hp] using h)

theorem find?_update_of_disjoint (hf : ∀ r, q (f r) = q r) (hd : ∀ r, q r = true → p r = false)
    (l : List α) : (update p f l).find? q = l.find? q := by
  rw [find?_update hf]
  cases h : l.find? q with
  | none => rfl
  | some r => simp [hd r (List.find?_some h)]

theorem any_find?_update {g : α → Bool} (hq : ∀ r, q (f r) = q r) (hg : ∀ r, g (f r) = g r)
    (l : List α) : ((update p f l).find? q).any g = (l.find? q).any g := by
  rw [find?_update hq]
  cases l.find? q with
  | none => rfl
  | some r =>
    simp only [Option.map_some, Option.any_some]
    split
    · exact hg r
    · rfl

theorem map_update {g : α → β} (hf : ∀ r, g (f r) = g r) (l : List α) :
    (update p f l).map g = l.map g := by
  induction l with
  | nil => rfl
  | cons r l ih =>
    simp only [update, List.map_cons] at ih ⊢
    rw [ih]
    split <;> simp [hf]

theorem filter_update (hf : ∀ r, q (f r) = q r) (l : List α) :
    (update p f l).filter q = update p f (l.filter q) := by
  induction l with
  | nil => rfl
  | cons r l ih =>
    have hq : q (if p r then f r else r) = q r := by split <;> simp [hf]
    simp only [update, List.map_cons, List.filter_cons, hq] at ih ⊢
    cases q r with
    | true => simpa using ih
    | false => simpa using ih

theorem update_of_find?_none (h : l.find? p = none) : update p f l = l := by
  rw [List.find?_eq_none] at h
  induction l with
  | nil => rfl
  | cons r l ih =>
    have hr : ¬p r = true := h r List.mem_cons_self
    have hrest := ih fun x hx => h x (List.mem_cons_of_mem _ hx)
    unfold update at hrest ⊢
    rw [List.map_cons, if_neg hr, hrest]

theorem countP_update_one (hone : l.Pairwise fun a b => p a = true → p b = false)
    (h : l.find? p = some r) :
    (update p f l).countP q + (if q r then 1 else 0) =
      l.countP q + (if q (f r) then 1 else 0) := by
  induction l with
  | nil => cases h
  | cons a l ih =>
    obtain ⟨ha, hrest⟩ := List.pairwise_cons.mp hone
    rw [List.find?_cons] at h
    have hmap : update p f (a :: l) = (if p a then f a else a) :: update p f l := rfl
    rw [hmap, List.countP_cons, List.countP_cons]
    cases hp : p a with
    | true =>
      rw [hp] at h
      obtain rfl := Option.some.inj h
      have hnone : l.find? p = none := by
        rw [List.find?_eq_none]
        intro x hx
        rw [ha x hx hp]
        exact Bool.false_ne_true
      rw [update_of_find?_none hnone, if_pos rfl]
      omega
    | false =>
      rw [hp] at h
      have := ih hrest h
      rw [if_neg Bool.false_ne_true]
      omega

theorem foldl_view {σ κ K V : Type} [DecidableEq K] (I : σ → Prop) (key : κ → K) (m : K)
    {f : σ → κ → σ} (view : σ → V) (g : κ → V → V) (hkeep : ∀ s x, I s → I (f s x))
    (hother : ∀ s x, I s → key x ≠ m → view (f s x) = view s)
    (hself : ∀ s x, I s → key x = m → view (f s x) = g x (view s)) {l : List κ}
    (hl : (l.map key).Nodup) {s : σ} (hs : I s) :
    I (l.foldl f s) ∧ view (l.foldl f s) =
      match l.find? (fun x => key x = m) with
      | some x => g x (view s)
      | none => view s := by
  induction l generalizing s with
  | nil => exact ⟨hs, rfl⟩
  | cons x l ih =>
    rw [List.map_cons, List.nodup_cons] at hl
    obtain ⟨hI, hview⟩ := ih hl.2 (hkeep s x hs)
    rw [List.foldl_cons]
    refine ⟨hI, hview.trans ?_⟩
    rw [List.find?_cons]
    by_cases hx : key x = m
    · have hnone : l.find? (fun y => key y = m) = none := by
        rw [List.find?_eq_none]
        intro y hy hym
        have hym : key y = m := by simpa using hym
        exact hl.1 (hx ▸ hym ▸ List.mem_map_of_mem hy)
      simp [hnone, hx, hself s x hs hx]
    · simp only [hx, decide_false]
      rw [hother s x hs hx]

/-! ## Order and limit -/

section
variable {key : α → Int} {n : Nat} {l : List α}

theorem firstBy_eq_insertionSort (h : l.length ≤ n) :
    firstBy key n l = l.insertionSort fun a b => key a ≤ key b := by
  apply List.take_of_length_le
  rwa [List.length_insertionSort]

theorem perm_firstBy (key : α → Int) (h : l.length ≤ n) : (firstBy key n l).Perm l := by
  rw [firstBy_eq_insertionSort h]
  exact List.perm_insertionSort _ l

theorem firstBy_of_pairwise (h : l.Pairwise fun a b => key a ≤ key b) :
    firstBy key n l = l.take n := by
  unfold firstBy
  rw [h.insertionSort_eq]

theorem filter_orderedInsert {q : α → Bool} {a : α}
    (h : l.Pairwise fun a b => key a ≤ key b) :
    (l.orderedInsert (fun a b => key a ≤ key b) a).filter q =
      if q a then (l.filter q).orderedInsert (fun a b => key a ≤ key b) a else l.filter q := by
  induction l with
  | nil => cases hq : q a <;> simp [hq]
  | cons b l ih =>
    obtain ⟨hb, hl⟩ := List.pairwise_cons.mp h
    rw [List.orderedInsert_cons]
    by_cases hab : key a ≤ key b
    · rw [if_pos hab]
      cases hq : q a with
      | false => simp [hq]
      | true =>
        -- what comes first in the table still does among the selected rows
        rw [List.filter_cons_of_pos hq, if_pos rfl]
        cases hc : (b :: l).filter q with
        | nil => rfl
        | cons c rest =>
          have hmem : c ∈ b :: l := (List.mem_filter.mp (hc ▸ List.mem_cons_self)).1
          have hac : key a ≤ key c := by
            rcases List.mem_cons.mp hmem with rfl | hmem
            · exact hab
            · have := hb c hmem
              omega
          rw [List.orderedInsert_cons, if_pos hac]
    · rw [if_neg hab]
      cases hqb : q b with
      | false =>
        rw [List.filter_cons_of_neg (by simp [hqb]), List.filter_cons_of_neg (by simp [hqb]), ih hl]
      | true =>
        rw [List.filter_cons_of_pos hqb, List.filter_cons_of_pos hqb, ih hl]
        cases q a with
        | false => rfl
        | true => rw [if_pos rfl, if_pos rfl, List.orderedInsert_cons, if_neg hab]

theorem filter_firstBy {q : α → Bool} (h : l.length ≤ n) :
    (firstBy key n l).filter q = firstBy key n (l.filter q) := by
  rw [firstBy_eq_insertionSort h,
    firstBy_eq_insertionSort (le_trans (List.length_filter_le q l) h)]
  clear h
  induction l with
  | nil => rfl
  | cons a l ih =>
    have hsorted : (l.insertionSort fun a b => key a ≤ key b).Pairwise
        fun a b => key a ≤ key b :=
      haveI : Std.Total fun a b : α => key a ≤ key b := ⟨fun a b => Int.le_total _ _⟩
      haveI : IsTrans α fun a b : α => key a ≤ key b := ⟨fun _ _ _ => Int.le_trans⟩
      List.pairwise_insertionSort _ l
    rw [List.insertionSort_cons, filter_orderedInsert hsorted, ih]
    cases hq : q a with
    | false => rw [List.filter_cons_of_neg (by simp [hq]), if_neg Bool.false_ne_true]
    | true => rw [List.filter_cons_of_pos hq, if_pos rfl, List.insertionSort_cons]

end

/-! ## Two tables, row by row -/

section
variable {R : α → β → Prop} {l : List α} {l' : List β}

theorem forall₂_mem (h : List.Forall₂ R l l') :
    List.Forall₂ (fun a b => R a b ∧ a ∈ l ∧ b ∈ l') l l' := by
  induction h with
  | nil => exact .nil
  | cons hab _ ih =>
    refine .cons ⟨hab, List.mem_cons_self, List.mem_cons_self⟩ (ih.imp ?_)
    rintro a b ⟨hab, ha, hb⟩
    exact ⟨hab, List.mem_cons_of_mem _ ha, List.mem_cons_of_mem _ hb⟩

theorem map_rel {γ : Type} {f : α → γ} {g : β → γ} (h : List.Forall₂ R l l')
    (hfg : ∀ a b, R a b → f a = g b) : l.map f = l'.map g := by
  induction h with
  | nil => rfl
  | cons hab _ ih => rw [List.map_cons, List.map_cons, hfg _ _ hab, ih]

variable {a : α} {p : α → Bool} {q : β → Bool}

theorem getElem?_rel {i : Nat} (h : List.Forall₂ R l l') (hi : l[i]? = some a) :
    ∃ b, l'[i]? = some b ∧ R a b := by
  induction h generalizing i with
  | nil => cases hi
  | cons hab _ ih =>
    cases i with
    | zero =>
      cases hi
      exact ⟨_, rfl, hab⟩
    | succ i => exact ih hi

theorem find?_rel (h : List.Forall₂ R l l') (hpq : ∀ a b, R a b → p a = q b) :
    Option.Rel R (l.find? p) (l'.find? q) := by
  induction h with
  | nil => exact .none
  | @cons a b _ _ hab _ ih =>
    rw [List.find?_cons, List.find?_cons, hpq a b hab]
    cases q b with
    | true => exact .some hab
    | false => exact ih

theorem any_rel (h : List.Forall₂ R l l') (hpq : ∀ a b, R a b → p a = q b) :
    l.any p = l'.any q := by
  induction h with
  | nil => rfl
  | cons hab _ ih => rw [List.any_cons, List.any_cons, hpq _ _ hab, ih]

theorem update_rel {f : α → α} {g : β → β} (h : List.Forall₂ R l l')
    (hpq : ∀ a b, R a b → a ∈ l → b ∈ l' → p a = q b)
    (hfg : ∀ a b, R a b → a ∈ l → b ∈ l' → q b = true → R (f a) (g b)) :
    List.Forall₂ R (update p f l) (update q g l') := by
  unfold update
  rw [List.forall₂_map_left_iff, List.forall₂_map_right_iff]
  refine (forall₂_mem h).imp ?_
  rintro a b ⟨hab, ha, hb⟩
  rw [hpq a b hab ha hb]
  split
  · next hq => exact hfg a b hab ha hb hq
  · exact hab

theorem orderedInsert_rel {key : α → Int} {key' : β → Int} {b : β} (hab : R a b)
    (h : List.Forall₂ R l l') (hkey : ∀ a b, R a b → key a = key' b) :
    List.Forall₂ R (l.orderedInsert (fun a b => key a ≤ key b) a)
      (l'.orderedInsert (fun a b => key' a ≤ key' b) b) := by
  induction h with
  | nil => exact .cons hab .nil
  | @cons c d _ _ hcd hrest ih =>
    rw [List.orderedInsert_cons, List.orderedInsert_cons, hkey a b hab, hkey c d hcd]
    split
    · exact .cons hab (.cons hcd hrest)
    · exact .cons hcd ih

theorem firstBy_rel (key : α → Int) (key' : β → Int) (n : Nat) (h : List.Forall₂ R l l')
    (hkey : ∀ a b, R a b → key a = key' b) :
    List.Forall₂ R (firstBy key n l) (firstBy key' n l') := by
  apply List.forall₂_take
  induction h with
  | nil => exact .nil
  | cons hab _ ih => exact orderedInsert_rel hab ih hkey

end

end Table
