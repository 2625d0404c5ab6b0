import Mathlib.Data.List.Pairwise
import Uptimepage.Text.Replace

/-!
# Replacing several patterns one after the other

`sweep pats` looks for all the patterns in one scan and puts the mark in the place of each
occurrence.  The elements of the text may carry more than the character they are compared by
(`key`), such as where they came from.
-/

namespace Text

section

variable {α β : Type} [DecidableEq α] (key : β → α) (mark : List β)

/-- `skip` counts what is left of the occurrence found last. -/
def sweepFrom (pats : List (List α)) : Nat → List β → List β
  | _, [] => []
  | skip + 1, _ :: rest => sweepFrom pats skip rest
  | 0, c :: rest =>
    match pats.find? fun p => p.isPrefixOf ((c :: rest).map key) with
    | some p => mark ++ sweepFrom pats (p.length - 1) rest
    | none => c :: sweepFrom pats 0 rest

def sweep (pats : List (List α)) (s : List β) : List β := sweepFrom key mark pats 0 s

end

/-- No two occurrences of patterns overlap. -/
def Apart {α : Type} (pats : List (List α)) (s : List α) : Prop :=
  ∀ p ∈ pats, ∀ q ∈ pats, ∀ i j, p <+: s.drop i → q <+: s.drop j →
    p = q ∧ i = j ∨ i + p.length ≤ j ∨ j + q.length ≤ i

/-- The occurrences of the pattern are genuine: no element of a mark is in one. -/
def Clear {α β : Type} (key : β → α) (genuine : β → Prop) (z : List α) (t : List β) : Prop :=
  ∀ k, z <+: (t.map key).drop k → ∀ b ∈ (t.drop k).take z.length, genuine b

section

variable {α : Type} {pats : List (List α)} {p : List α}

theorem Apart.drop {t : List α} (h : Apart pats t) (n : Nat) : Apart pats (t.drop n) := by
  intro p hp q hq i j hi hj
  rw [List.drop_drop] at hi hj
  rcases h p hp q hq (n + i) (n + j) hi hj with ⟨heq, hij⟩ | hle | hle
  · exact .inl ⟨heq, by omega⟩
  · exact .inr (.inl (by omega))
  · exact .inr (.inr (by omega))

theorem Apart.mono {pats' : List (List α)} {t : List α} (h : Apart pats t)
    (hsub : ∀ p ∈ pats', p ∈ pats) : Apart pats' t :=
  fun p hp q hq => h p (hsub p hp) q (hsub q hq)

theorem Apart.eq_of_occur {t q : List α} (h : Apart pats t) (hp : p ∈ pats) (hq : q ∈ pats)
    (hp0 : p ≠ []) (hq0 : q ≠ []) (hpre : p <+: t) (hqre : q <+: t) : p = q := by
  have hplen := List.length_pos_iff.mpr hp0
  have hqlen := List.length_pos_iff.mpr hq0
  rcases h p hp q hq 0 0 hpre hqre with ⟨heq, -⟩ | hle | hle
  · exact heq
  · omega
  · omega

end

section

variable {α β : Type} [DecidableEq α] {key : β → α} {mark : List β} {pats : List (List α)}
  {p z : List α} {s : List β}

theorem sweepFrom_drop (n : Nat) (s : List β) :
    sweepFrom key mark pats n s = sweep key mark pats (s.drop n) := by
  induction s generalizing n with
  | nil => cases n <;> rfl
  | cons c s ih =>
    cases n with
    | zero => rfl
    | succ n => exact ih n

theorem sweep_of_find (hs : s ≠ [])
    (h : pats.find? (fun p => p.isPrefixOf (s.map key)) = some p) (hp : p ≠ []) :
    sweep key mark pats s = mark ++ sweep key mark pats (s.drop p.length) := by
  obtain ⟨c, s, rfl⟩ := List.exists_cons_of_ne_nil hs
  obtain ⟨d, p, rfl⟩ := List.exists_cons_of_ne_nil hp
  have hrest : sweepFrom key mark pats ((d :: p).length - 1) s =
      sweep key mark pats ((c :: s).drop (d :: p).length) := sweepFrom_drop _ s
  rw [sweep, sweepFrom, h]
  exact congrArg (mark ++ ·) hrest

theorem sweep_cons_of_find {c : β} (h : pats.find? (fun p => p.isPrefixOf ((c :: s).map key)) =
    none) : sweep key mark pats (c :: s) = c :: sweep key mark pats s := by
  unfold sweep
  rw [sweepFrom, h]

theorem mem_of_find (h : pats.find? (fun p => p.isPrefixOf (s.map key)) = some p) :
    p ∈ pats ∧ p <+: s.map key :=
  ⟨List.mem_of_find?_eq_some h,
    List.isPrefixOf_iff_prefix.mp
      (List.find?_some (p := fun p : List α => p.isPrefixOf (s.map key)) h)⟩

theorem not_occurs_of_find (h : pats.find? (fun p => p.isPrefixOf (s.map key)) = none)
    (hp : p ∈ pats) : ¬ p <+: s.map key := by
  intro hpre
  have := List.find?_eq_none.mp h p hp
  exact this (List.isPrefixOf_iff_prefix.mpr hpre)

omit [DecidableEq α] in
theorem ne_nil_of_occurs (hp : p ≠ []) (h : p <+: s.map key) : s ≠ [] := by
  rintro rfl
  exact hp (List.prefix_nil.mp h)

@[simp] theorem sweep_no_pats : sweep key mark [] s = s := by
  induction s with
  | nil => rfl
  | cons c s ih => rw [sweep_cons_of_find (by rfl), ih]

theorem map_sweep_singleton (skip : Nat) (s : List β) :
    (sweepFrom key mark [z] skip s).map key = replaceFrom z (mark.map key) skip (s.map key) := by
  induction s generalizing skip with
  | nil => cases skip <;> rfl
  | cons c s ih =>
    cases skip with
    | succ skip => exact ih skip
    | zero =>
      rw [List.map_cons, replaceFrom, sweepFrom, List.find?_cons]
      cases hz : z.isPrefixOf ((c :: s).map key) with
      | true =>
        rw [List.map_cons] at hz
        rw [if_pos hz, List.map_append, ih]
      | false =>
        rw [List.map_cons] at hz
        rw [hz]
        exact congrArg (key c :: ·) (ih 0)

theorem sweep_of_not_infix (h : ∀ p ∈ pats, ¬ p <:+: s.map key) :
    sweep key mark pats s = s := by
  induction s with
  | nil => rfl
  | cons c s ih =>
    have hfind : pats.find? (fun p => p.isPrefixOf ((c :: s).map key)) = none := by
      rw [List.find?_eq_none]
      intro p hp hpre
      exact h p hp (List.isPrefixOf_iff_prefix.mp hpre).isInfix
    rw [sweep_cons_of_find hfind, ih fun p hp hin => h p hp (List.infix_cons hin)]

theorem mem_of_mem_sweep {b : β} (h : b ∈ sweep key mark pats s) : b ∈ mark ∨ b ∈ s := by
  suffices hfrom : ∀ skip, b ∈ sweepFrom key mark pats skip s → b ∈ mark ∨ b ∈ s from hfrom 0 h
  clear h
  induction s with
  | nil =>
    intro skip h
    cases skip <;> exact .inr h
  | cons c s ih =>
    intro skip h
    cases skip with
    | succ skip => exact (ih skip h).imp_right (List.mem_cons_of_mem c)
    | zero =>
      rw [sweepFrom] at h
      split at h
      · rcases List.mem_append.mp h with hin | h
        · exact .inl hin
        · exact (ih _ h).imp_right (List.mem_cons_of_mem c)
      · rcases List.mem_cons.mp h with rfl | h
        · exact .inr List.mem_cons_self
        · exact (ih _ h).imp_right (List.mem_cons_of_mem c)

theorem sweep_copy (n : Nat) (hn : n ≤ s.length)
    (h : ∀ p ∈ pats, ∀ i < n, ¬ p <+: (s.map key).drop i) :
    sweep key mark pats s = s.take n ++ sweep key mark pats (s.drop n) := by
  induction n generalizing s with
  | zero => rfl
  | succ n ih =>
    cases s with
    | nil => cases hn
    | cons c s =>
      have hfind : pats.find? (fun p => p.isPrefixOf ((c :: s).map key)) = none := by
        rw [List.find?_eq_none]
        intro p hp hpre
        exact h p hp 0 (Nat.zero_lt_succ n) (List.isPrefixOf_iff_prefix.mp hpre)
      rw [sweep_cons_of_find hfind, ih (Nat.le_of_succ_le_succ hn) fun p hp i hi =>
        h p hp (i + 1) (Nat.succ_lt_succ hi)]
      rfl

theorem sweep_congr {pats' : List (List α)} (hmem : ∀ p, p ∈ pats ↔ p ∈ pats')
    (hne : ∀ p ∈ pats, p ≠ []) (h : Apart pats (s.map key)) :
    sweep key mark pats s = sweep key mark pats' s := by
  induction hn : s.length using Nat.strong_induction_on generalizing s with
  | _ n ih =>
    subst hn
    cases s with
    | nil => rfl
    | cons c s =>
      cases hfind : pats.find? (fun p => p.isPrefixOf ((c :: s).map key)) with
      | none =>
        have hfind' : pats'.find? (fun p => p.isPrefixOf ((c :: s).map key)) = none := by
          rw [List.find?_eq_none] at hfind ⊢
          exact fun p hp => hfind p ((hmem p).mpr hp)
        rw [sweep_cons_of_find hfind, sweep_cons_of_find hfind',
          ih s.length (Nat.lt_succ_self _) (h.drop 1) rfl]
      | some p =>
        obtain ⟨hp, hpre⟩ := mem_of_find hfind
        have hfind' : pats'.find? (fun p => p.isPrefixOf ((c :: s).map key)) = some p := by
          cases hq : pats'.find? (fun p => p.isPrefixOf ((c :: s).map key)) with
          | none => exact absurd hpre (not_occurs_of_find hq ((hmem p).mp hp))
          | some q =>
            obtain ⟨hq, hqre⟩ := mem_of_find hq
            have hq' := (hmem q).mpr hq
            rw [h.eq_of_occur hq' hp (hne q hq') (hne p hp) hqre hpre]
        have hplen := List.length_pos_iff.mpr (hne p hp)
        rw [sweep_of_find (List.cons_ne_nil c s) hfind (hne p hp),
          sweep_of_find (List.cons_ne_nil c s) hfind' (hne p hp),
          ih _ (by rw [List.length_drop, List.length_cons]; omega)
            (by rw [List.map_drop]; exact h.drop _) rfl]

/-! ## One pattern after the others -/

section

variable {genuine : β → Prop} (hmark : ∀ m ∈ mark, ¬ genuine m)

omit [DecidableEq α] in
theorem Clear.drop {t : List β} (h : Clear key genuine z t) (n : Nat) :
    Clear key genuine z (t.drop n) := by
  intro k hat b hb
  rw [List.map_drop, List.drop_drop] at hat
  rw [List.drop_drop] at hb
  exact h (n + k) hat b hb

include hmark

theorem take_sweep (hmark0 : mark ≠ []) (hne : ∀ p ∈ pats, p ≠ []) (n : Nat)
    (h : ∀ b ∈ (sweep key mark pats s).take n, genuine b) :
    (sweep key mark pats s).take n = s.take n := by
  induction n generalizing s with
  | zero => rfl
  | succ n ih =>
    cases s with
    | nil => rfl
    | cons c s =>
      cases hfind : pats.find? (fun p => p.isPrefixOf ((c :: s).map key)) with
      | none =>
        rw [sweep_cons_of_find hfind] at h ⊢
        rw [List.take_succ_cons, List.take_succ_cons,
          ih fun b hb => h b (List.mem_cons_of_mem c hb)]
      | some p =>
        obtain ⟨m, mark, rfl⟩ := List.exists_cons_of_ne_nil hmark0
        rw [sweep_of_find (List.cons_ne_nil c s) hfind (hne p (mem_of_find hfind).1)] at h
        exact absurd (h m List.mem_cons_self) (hmark m List.mem_cons_self)

variable (genuine) in
theorem sweep_mark_append (hz : z ≠ []) (r : List β) (h : Clear key genuine z (mark ++ r)) :
    sweep key mark [z] (mark ++ r) = mark ++ sweep key mark [z] r := by
  suffices hm : ∀ m : List β, (∀ c ∈ m, c ∈ mark) → Clear key genuine z (m ++ r) →
      sweep key mark [z] (m ++ r) = m ++ sweep key mark [z] r from hm mark (fun _ hc => hc) h
  intro m hm hclear
  induction m with
  | nil => rfl
  | cons c m ih =>
    have hfind : [z].find? (fun p => p.isPrefixOf ((c :: (m ++ r)).map key)) = none := by
      rw [List.find?_eq_none]
      intro p hp hpre
      obtain rfl := List.mem_singleton.mp hp
      obtain ⟨d, p, rfl⟩ := List.exists_cons_of_ne_nil hz
      exact hmark c (hm c List.mem_cons_self)
        (hclear 0 (List.isPrefixOf_iff_prefix.mp hpre) c List.mem_cons_self)
    rw [List.cons_append, sweep_cons_of_find hfind,
      ih (fun d hd => hm d (List.mem_cons_of_mem c hd)) (hclear.drop 1), List.cons_append]

theorem sweep_sweep (hmark0 : mark ≠ []) (hz : z ≠ []) (hne : ∀ p ∈ pats, p ≠ [])
    (h : Apart (pats ++ [z]) (s.map key)) (hclear : Clear key genuine z (sweep key mark pats s)) :
    sweep key mark [z] (sweep key mark pats s) = sweep key mark (pats ++ [z]) s := by
  induction hn : s.length using Nat.strong_induction_on generalizing s with
  | _ n ih =>
    subst hn
    cases s with
    | nil => rfl
    | cons c s =>
      have hzlen := List.length_pos_iff.mpr hz
      have hrest : ∀ k, 0 < k → Clear key genuine z (sweep key mark pats ((c :: s).drop k)) →
          sweep key mark [z] (sweep key mark pats ((c :: s).drop k)) =
            sweep key mark (pats ++ [z]) ((c :: s).drop k) := by
        intro k hk hclear
        refine ih _ ?_ (by rw [List.map_drop]; exact h.drop k) hclear rfl
        rw [List.length_drop, List.length_cons]
        omega
      cases hfind : pats.find? (fun p => p.isPrefixOf ((c :: s).map key)) with
      | some p =>
        -- a pattern of the first scan
        have hp := hne p (mem_of_find hfind).1
        have hfind' : (pats ++ [z]).find? (fun p => p.isPrefixOf ((c :: s).map key)) = some p := by
          rw [List.find?_append, hfind]
          rfl
        rw [sweep_of_find (List.cons_ne_nil c s) hfind hp] at hclear ⊢
        have hclear' := hclear.drop mark.length
        rw [List.drop_left] at hclear'
        rw [sweep_of_find (List.cons_ne_nil c s) hfind' hp, sweep_mark_append genuine hmark hz _ hclear,
          hrest _ (List.length_pos_iff.mpr hp) hclear']
      | none =>
        by_cases hpre : z <+: (c :: s).map key
        · -- the new pattern, which the first scan left whole
          have hfind' : (pats ++ [z]).find? (fun p => p.isPrefixOf ((c :: s).map key)) =
              some z := by
            rw [List.find?_append, hfind, Option.none_or, List.find?_cons,
              List.isPrefixOf_iff_prefix.mpr hpre]
          have hlen : z.length ≤ (c :: s).length := by
            have := hpre.length_le
            rwa [List.length_map] at this
          have hcopy : ∀ p ∈ pats, ∀ i < z.length, ¬ p <+: ((c :: s).map key).drop i := by
            intro p hp i hi hat
            have hmem : p ∈ pats ++ [z] := List.mem_append_left _ hp
            have hplen := List.length_pos_iff.mpr (hne p hp)
            rcases h p hmem z (List.mem_append_right _ List.mem_cons_self) i 0 hat hpre with
              ⟨-, rfl⟩ | hle | hle
            · exact not_occurs_of_find hfind hp hat
            · omega
            · omega
          rw [sweep_copy z.length hlen hcopy] at hclear ⊢
          have htake : ((c :: s).take z.length).map key = z := by
            rw [List.map_take]
            exact (List.prefix_iff_eq_take.mp hpre).symm
          have htakelen : ((c :: s).take z.length).length = z.length :=
            List.length_take_of_le hlen
          have hfound : [z].find? (fun p => p.isPrefixOf
              (((c :: s).take z.length ++ sweep key mark pats ((c :: s).drop z.length)).map key)) =
              some z := by
            rw [List.find?_cons, List.map_append, htake,
              List.isPrefixOf_iff_prefix.mpr (List.prefix_append _ _)]
          have hclear' := hclear.drop z.length
          rw [List.drop_left' htakelen] at hclear'
          rw [sweep_of_find (ne_nil_of_occurs hz (mem_of_find hfound).2) hfound hz,
            sweep_of_find (List.cons_ne_nil c s) hfind' hz, ← hrest z.length hzlen hclear',
            List.drop_left' htakelen]
        · -- nothing here
          have hfind' : (pats ++ [z]).find? (fun p => p.isPrefixOf ((c :: s).map key)) = none := by
            rw [List.find?_append, hfind, Option.none_or, List.find?_eq_none]
            intro p hp hat
            obtain rfl := List.mem_singleton.mp hp
            exact hpre (List.isPrefixOf_iff_prefix.mp hat)
          have hstill : [z].find? (fun p =>
              p.isPrefixOf ((c :: sweep key mark pats s).map key)) = none := by
            rw [List.find?_eq_none]
            intro p hp hat
            obtain rfl := List.mem_singleton.mp hp
            apply hpre
            have hat := List.isPrefixOf_iff_prefix.mp hat
            rw [← sweep_cons_of_find hfind] at hat
            rw [List.prefix_iff_eq_take, ← List.map_take,
              ← take_sweep hmark hmark0 hne p.length fun b hb => hclear 0 hat b hb, List.map_take]
            exact List.prefix_iff_eq_take.mp hat
          rw [sweep_cons_of_find hfind] at hclear ⊢
          rw [sweep_cons_of_find hstill, sweep_cons_of_find hfind']
          exact congrArg (c :: ·) (hrest 1 Nat.one_pos (hclear.drop 1))

variable (genuine) in
theorem foldl_sweep {zs : List (List α)} (hmark0 : mark ≠ []) (hne : ∀ p ∈ pats ++ zs, p ≠ [])
    (hclear : ∀ before z, before ++ [z] <+: zs →
      Clear key genuine z (sweep key mark (pats ++ before) s))
    (h : Apart (pats ++ zs) (s.map key)) :
    zs.foldl (fun s z => sweep key mark [z] s) (sweep key mark pats s) =
      sweep key mark (pats ++ zs) s := by
  induction zs generalizing pats with
  | nil => rw [List.foldl_nil, List.append_nil]
  | cons z zs ih =>
    have happ : pats ++ z :: zs = pats ++ [z] ++ zs := by rw [List.append_assoc]; rfl
    rw [happ] at h hne
    have hone : ∀ p ∈ pats ++ [z], p ∈ pats ++ [z] ++ zs := fun p hp => List.mem_append_left _ hp
    have hfirst := hclear [] z ⟨zs, rfl⟩
    rw [List.append_nil] at hfirst
    rw [List.foldl_cons, sweep_sweep hmark hmark0
      (hne z (hone z (List.mem_append_right _ List.mem_cons_self)))
      (fun p hp => hne p (hone p (List.mem_append_left _ hp))) (h.mono hone) hfirst, happ]
    refine ih hne (fun before y hpre => ?_) h
    have hlater := hclear (z :: before) y (List.cons_prefix_cons.mpr ⟨rfl, hpre⟩)
    rwa [List.append_cons] at hlater

end

/-! ## Around a mark -/

section

variable (hfree : ∀ c ∈ z, c ∉ mark.map key)

include hfree

omit [DecidableEq α] in
theorem infix_of_infix_append (hz : z ≠ []) {r : List α} (h : z <:+: mark.map key ++ r) :
    z <:+: r := by
  suffices hm : ∀ m : List α, (∀ c ∈ m, c ∈ mark.map key) → z <:+: m ++ r → z <:+: r from
    hm _ (fun _ hc => hc) h
  intro m hm hin
  induction m with
  | nil => exact hin
  | cons c m ih =>
    rw [List.cons_append, List.infix_cons_iff] at hin
    rcases hin with hpre | hin
    · obtain ⟨d, z, rfl⟩ := List.exists_cons_of_ne_nil hz
      obtain ⟨rfl, -⟩ := List.cons_prefix_cons.mp hpre
      exact absurd (hm _ List.mem_cons_self) (hfree _ List.mem_cons_self)
    · exact ih (fun d hd => hm d (List.mem_cons_of_mem c hd)) hin

omit [DecidableEq α] in
theorem prefix_of_append_mark (hmark : mark ≠ []) {a b : List α}
    (h : z <+: a ++ (mark.map key ++ b)) : z <+: a := by
  rcases Nat.le_total z.length a.length with hle | hle
  · exact List.prefix_of_prefix_length_le h (List.prefix_append _ _) hle
  · obtain ⟨r, rfl⟩ := List.prefix_of_prefix_length_le (List.prefix_append _ _) h hle
    rw [List.prefix_append_right_inj] at h
    cases r with
    | nil => rw [List.append_nil]
    | cons c r =>
      obtain ⟨d, m, hm⟩ := List.exists_cons_of_ne_nil hmark
      rw [hm, List.map_cons, List.cons_append, List.cons_prefix_cons] at h
      have hc := hfree c (List.mem_append_right _ List.mem_cons_self)
      rw [hm, List.map_cons, h.1] at hc
      exact absurd List.mem_cons_self hc

theorem sweep_append_mark (hmark : mark ≠ []) (hz : z ≠ []) (a b : List β) :
    sweep key mark [z] (a ++ (mark ++ b)) =
      sweep key mark [z] a ++ (mark ++ sweep key mark [z] b) := by
  induction hn : a.length using Nat.strong_induction_on generalizing a with
  | _ n ih =>
    subst hn
    cases a with
    | nil =>
      refine sweep_mark_append (fun b => key b ∉ mark.map key)
        (fun m hm hnot => hnot (List.mem_map_of_mem hm)) hz b (fun k hat d hd => hfree _ ?_)
      rw [List.prefix_iff_eq_take.mp hat, ← List.map_drop, ← List.map_take]
      exact List.mem_map_of_mem hd
    | cons c a =>
      have hiff : z <+: (c :: (a ++ (mark ++ b))).map key ↔ z <+: (c :: a).map key := by
        rw [← List.cons_append, List.map_append, List.map_append]
        exact ⟨prefix_of_append_mark hfree hmark, fun h => h.trans (List.prefix_append _ _)⟩
      by_cases hpre : z <+: (c :: a).map key
      · have hlen := hpre.length_le
        rw [List.length_map] at hlen
        have hfound : [z].find? (fun p => p.isPrefixOf ((c :: a).map key)) = some z := by
          rw [List.find?_cons, List.isPrefixOf_iff_prefix.mpr hpre]
        have hfound' : [z].find? (fun p => p.isPrefixOf ((c :: (a ++ (mark ++ b))).map key)) =
            some z := by
          rw [List.find?_cons, List.isPrefixOf_iff_prefix.mpr (hiff.mpr hpre)]
        have hzlen := List.length_pos_iff.mpr hz
        rw [sweep_of_find (List.cons_ne_nil _ _) hfound hz, List.cons_append,
          sweep_of_find (List.cons_ne_nil _ _) hfound' hz, ← List.cons_append,
          List.drop_append_of_le_length hlen, ih _ (by rw [List.length_drop, List.length_cons]; omega) _ rfl, List.append_assoc]
      · have hfound : [z].find? (fun p => p.isPrefixOf ((c :: a).map key)) = none := by
          rw [List.find?_cons, Bool.eq_false_iff.mpr
            (fun h => hpre (List.isPrefixOf_iff_prefix.mp h)), List.find?_nil]
        have hfound' : [z].find? (fun p => p.isPrefixOf ((c :: (a ++ (mark ++ b))).map key)) =
            none := by
          rw [List.find?_cons, Bool.eq_false_iff.mpr
            (fun h => hpre (hiff.mp (List.isPrefixOf_iff_prefix.mp h))), List.find?_nil]
        rw [List.cons_append, sweep_cons_of_find hfound', sweep_cons_of_find hfound,
          ih a.length (Nat.lt_succ_self _) a rfl, List.cons_append]

end

theorem sweep_ne_nil (hmark : mark ≠ []) (hne : ∀ p ∈ pats, p ≠ []) (hs : s ≠ []) :
    sweep key mark pats s ≠ [] := by
  obtain ⟨c, s, rfl⟩ := List.exists_cons_of_ne_nil hs
  cases hfind : pats.find? (fun p => p.isPrefixOf ((c :: s).map key)) with
  | none =>
    rw [sweep_cons_of_find hfind]
    exact List.cons_ne_nil _ _
  | some p =>
    rw [sweep_of_find hs hfind (hne p (mem_of_find hfind).1)]
    exact fun h => hmark (List.append_eq_nil_iff.mp h).1

theorem foldl_sweep_beside (hmark : mark ≠ []) {zs : List (List α)} (hne : ∀ z ∈ zs, z ≠ [])
    (hfree : ∀ z ∈ zs, ∀ c ∈ z, c ∉ mark.map key) {a b : List β} (hab : a ++ b ≠ []) :
    ∃ a' b', a' ++ b' ≠ [] ∧
      zs.foldl (fun s z => sweep key mark [z] s) (a ++ (mark ++ b)) = a' ++ (mark ++ b') := by
  induction zs generalizing a b with
  | nil => exact ⟨a, b, hab, rfl⟩
  | cons z zs ih =>
    have hz := hne z List.mem_cons_self
    rw [List.foldl_cons, sweep_append_mark (hfree z List.mem_cons_self) hmark hz]
    apply ih (fun y hy => hne y (List.mem_cons_of_mem z hy))
      (fun y hy => hfree y (List.mem_cons_of_mem z hy))
    have hone : ∀ p ∈ [z], p ≠ [] := fun p hp => List.mem_singleton.mp hp ▸ hz
    intro hnil
    obtain ⟨ha, hb⟩ := List.append_eq_nil_iff.mp hnil
    apply hab
    rw [List.append_eq_nil_iff]
    constructor
    · by_contra hne
      exact sweep_ne_nil hmark hone hne ha
    · by_contra hne
      exact sweep_ne_nil hmark hone hne hb

theorem exists_sweep_eq (hz : z ≠ []) (h : z <:+: s.map key) :
    ∃ a o b, s = a ++ (o ++ b) ∧ o.map key = z ∧
      sweep key mark [z] s = a ++ (mark ++ sweep key mark [z] b) := by
  induction s with
  | nil => exact absurd (List.infix_nil.mp h) hz
  | cons c s ih =>
    by_cases hpre : z <+: (c :: s).map key
    · have hfind : [z].find? (fun p => p.isPrefixOf ((c :: s).map key)) = some z := by
        rw [List.find?_cons, List.isPrefixOf_iff_prefix.mpr hpre]
      refine ⟨[], (c :: s).take z.length, (c :: s).drop z.length,
        (List.take_append_drop _ _).symm, ?_, sweep_of_find (List.cons_ne_nil _ _) hfind hz⟩
      rw [List.map_take]
      exact (List.prefix_iff_eq_take.mp hpre).symm
    · have hfind : [z].find? (fun p => p.isPrefixOf ((c :: s).map key)) = none := by
        rw [List.find?_cons, Bool.eq_false_iff.mpr
          (fun h => hpre (List.isPrefixOf_iff_prefix.mp h)), List.find?_nil]
      obtain ⟨a, o, b, rfl, ho, heq⟩ := ih ((List.infix_cons_iff.mp h).resolve_left hpre)
      exact ⟨c :: a, o, b, rfl, ho, by rw [sweep_cons_of_find hfind, heq]; rfl⟩

end

/-! ## Where the characters came from -/

section

variable {α : Type} {s : List α} {n i : Nat} {c : α}

/-- Each character with its place. -/
def tagged : Nat → List α → List (α × Option Nat)
  | _, [] => []
  | n, c :: s => (c, some n) :: tagged (n + 1) s

@[simp] theorem map_fst_tagged (n : Nat) (s : List α) : (tagged n s).map Prod.fst = s := by
  induction s generalizing n with
  | nil => rfl
  | cons c s ih => exact congrArg (c :: ·) (ih (n + 1))

theorem tagged_drop (k : Nat) : (tagged n s).drop k = tagged (n + k) (s.drop k) := by
  induction k generalizing n s with
  | zero => rfl
  | succ k ih =>
    cases s with
    | nil => rfl
    | cons c s =>
      have := ih (n := n + 1) (s := s)
      rw [Nat.add_right_comm, Nat.add_assoc] at this
      exact this

theorem le_of_mem_tagged (h : (c, some i) ∈ tagged n s) : n ≤ i := by
  induction s generalizing n with
  | nil => cases h
  | cons d s ih =>
    rcases List.mem_cons.mp h with heq | h
    · cases heq
      exact Nat.le_refl _
    · exact Nat.le_of_succ_le (ih h)

theorem ne_none_of_mem_tagged {b : α × Option Nat} (h : b ∈ tagged n s) : b.2 ≠ none := by
  induction s generalizing n with
  | nil => cases h
  | cons d s ih =>
    rcases List.mem_cons.mp h with rfl | h
    · exact Option.some_ne_none _
    · exact ih h

variable [DecidableEq α] {mark : List (α × Option Nat)} {pats : List (List α)}

theorem le_of_mem_sweep (hmark : ∀ m ∈ mark, m.2 = none)
    (h : (c, some i) ∈ sweep Prod.fst mark pats (tagged n s)) : n ≤ i := by
  rcases mem_of_mem_sweep h with hin | hin
  · cases hmark _ hin
  · exact le_of_mem_tagged hin

theorem not_covered_of_mem_sweep (hmark : ∀ m ∈ mark, m.2 = none) (hne : ∀ p ∈ pats, p ≠ [])
    (h : Apart pats s) (hmem : (c, some i) ∈ sweep Prod.fst mark pats (tagged n s)) :
    ∀ p ∈ pats, ∀ k, p <+: s.drop k → ¬ (n + k ≤ i ∧ i < n + k + p.length) := by
  induction hlen : s.length using Nat.strong_induction_on generalizing s n with
  | _ m ih =>
    subst hlen
    intro p hp k hat ⟨hle, hlt⟩
    have hplen := List.length_pos_iff.mpr (hne p hp)
    cases s with
    | nil =>
      rw [List.drop_nil, List.prefix_nil] at hat
      exact hne p hp hat
    | cons d s =>
      have hmap : (tagged n (d :: s)).map Prod.fst = d :: s := map_fst_tagged n (d :: s)
      cases hfind : pats.find? (fun p => p.isPrefixOf ((tagged n (d :: s)).map Prod.fst)) with
      | none =>
        rw [tagged] at hmem hfind
        rw [sweep_cons_of_find hfind] at hmem
        have hk : k ≠ 0 := by
          rintro rfl
          exact not_occurs_of_find hfind hp (by rw [← tagged, hmap]; exact hat)
        rcases List.mem_cons.mp hmem with heq | hmem
        · cases heq
          omega
        · obtain ⟨k, rfl⟩ := Nat.exists_eq_succ_of_ne_zero hk
          exact ih s.length (Nat.lt_succ_self _) (h.drop 1) hmem rfl p hp k hat
            ⟨by omega, by omega⟩
      | some q =>
        obtain ⟨hq, hqre⟩ := mem_of_find hfind
        rw [hmap] at hqre
        have hqlen := List.length_pos_iff.mpr (hne q hq)
        have hsome : tagged n (d :: s) ≠ [] := List.cons_ne_nil _ _
        rw [sweep_of_find hsome hfind (hne q hq), tagged_drop] at hmem
        rcases List.mem_append.mp hmem with hin | hmem
        · cases hmark _ hin
        · have hbound := le_of_mem_sweep hmark hmem
          have hafter : q.length ≤ k := by
            rcases h p hp q hq k 0 hat hqre with ⟨rfl, rfl⟩ | hle | hle <;> omega
          obtain ⟨k, rfl⟩ := Nat.exists_eq_add_of_le hafter
          refine ih _ ?_ (h.drop q.length) hmem rfl p hp k ?_ ⟨by omega, by omega⟩
          · rw [List.length_drop, List.length_cons]
            omega
          · rw [List.drop_drop]
            exact hat

end

end Text
