import Mathlib.Data.List.Induction
import Mathlib.Tactic.Linarith
import Mathlib.Tactic.Ring

/-!
# Rate limiters

A `Limiter` is checked at one moment after another.  `Lawful` says what its callers rely on: over
any stretch of checks it admits at most a burst and what its rate allows, and a fresh one admits
its burst.  `gcra` is the generic cell rate algorithm, and `gcra_lawful` shows that it is one.
-/

namespace Limits

/-- A refused check names the moment to wait for. -/
structure Limiter where
  State : Type
  /-- Fresh, for so many checks in a period. -/
  direct : Nat → State
  check : State → Int → Option Int × State

/-- When a check was made, for which limit, and whether it was admitted. -/
structure Answer where
  time : Int
  limit : Nat
  admitted : Bool
deriving DecidableEq

def admitted (l : List Answer) : Nat := l.countP Answer.admitted

theorem admitted_append (l l' : List Answer) : admitted (l ++ l') = admitted l + admitted l' :=
  List.countP_append

/-- At most a burst and what the rate allows. -/
def Bounded (period : Int) (n : Nat) (l : List Answer) : Prop :=
  ∀ first last : Int, first ≤ last → (∀ a ∈ l, first ≤ a.time ∧ a.time ≤ last) →
    period * admitted l ≤ n * (period + (last - first))

namespace Limiter

variable (L : Limiter)

/-- The state after checks at the given moments. -/
def after (s : L.State) : List Int → L.State
  | [] => s
  | t :: ts => after (L.check s t).2 ts

def answers (n : Nat) (s : L.State) : List Int → List Answer
  | [] => []
  | t :: ts => ⟨t, n, (L.check s t).1.isNone⟩ :: answers n (L.check s t).2 ts

variable {L} {n : Nat} {s : L.State} {times times' : List Int}

theorem after_append : L.after s (times ++ times') = L.after (L.after s times) times' := by
  induction times generalizing s with
  | nil => rfl
  | cons t ts ih => exact ih

theorem answers_append : L.answers n s (times ++ times') =
    L.answers n s times ++ L.answers n (L.after s times) times' := by
  induction times generalizing s with
  | nil => rfl
  | cons t ts ih => exact congrArg _ ih

theorem answers_snoc {t : Int} : L.answers n s (times ++ [t]) =
    L.answers n s times ++ [⟨t, n, (L.check (L.after s times) t).1.isNone⟩] := answers_append

theorem length_answers : (L.answers n s times).length = times.length := by
  induction times generalizing s with
  | nil => rfl
  | cons t ts ih => exact congrArg Nat.succ ih

theorem limit_of_mem_answers {a : Answer} (h : a ∈ L.answers n s times) : a.limit = n := by
  induction times generalizing s with
  | nil => cases h
  | cons t ts ih =>
    rcases List.mem_cons.mp h with rfl | h
    · rfl
    · exact ih h

theorem map_time_answers : (L.answers n s times).map Answer.time = times := by
  induction times generalizing s with
  | nil => rfl
  | cons t ts ih => exact congrArg _ ih

theorem time_of_mem_answers {a : Answer} (h : a ∈ L.answers n s times) : a.time ∈ times := by
  have hmem := List.mem_map_of_mem (f := Answer.time) h
  rwa [map_time_answers] at hmem

theorem answers_eq_append {pre post : List Answer} (h : L.answers n s times = pre ++ post) :
    ∃ ts ts', times = ts ++ ts' ∧ pre = L.answers n s ts ∧
      post = L.answers n (L.after s ts) ts' := by
  induction times generalizing s pre with
  | nil =>
    obtain ⟨rfl, rfl⟩ := List.append_eq_nil_iff.mp h.symm
    exact ⟨[], [], rfl, rfl, rfl⟩
  | cons t times ih =>
    cases pre with
    | nil => exact ⟨[], t :: times, rfl, rfl, h.symm⟩
    | cons a pre =>
      obtain ⟨rfl, hrest⟩ := List.cons_eq_cons.mp h
      obtain ⟨ts, ts', rfl, rfl, rfl⟩ := ih hrest
      exact ⟨t :: ts, ts', rfl, rfl, rfl⟩

variable (L) in
/-- What callers rely on. -/
structure Lawful (period : Int) : Prop where
  bounded : ∀ n, 0 < n → ∀ times : List Int, times.Pairwise (· ≤ ·) →
    ∀ pre seg post, L.answers n (L.direct n) times = pre ++ seg ++ post → Bounded period n seg
  full : ∀ n (times : List Int), times.Pairwise (· ≤ ·) → times.length ≤ n →
    ∀ a ∈ L.answers n (L.direct n) times, a.admitted = true

theorem Lawful.burst {period : Int} (h : L.Lawful period) (hsorted : times.Pairwise (· ≤ ·))
    {seg post : List Answer} (heq : L.answers n (L.direct n) times = seg ++ post)
    (hlen : seg.length ≤ n) : ∀ a ∈ seg, a.admitted = true := by
  obtain ⟨ts, ts', rfl, rfl, -⟩ := answers_eq_append heq
  rw [length_answers] at hlen
  exact h.full n ts (List.pairwise_append.mp hsorted).1 hlen

end Limiter

/-! ## One limiter after another -/

/-- While the limit stays the same the law holds, and where it has risen a burst is admitted. -/
def Follows (period : Int) (l : List Answer) : Prop :=
  ∀ n pre seg post, l = pre ++ seg ++ post → (∀ a ∈ seg, a.limit = n) →
    Bounded period n seg ∧
    (pre.getLast?.any (fun a => decide (a.limit < n)) = true → seg.length ≤ n →
      ∀ a ∈ seg, a.admitted = true)

theorem Bounded.nil {period : Int} (hperiod : 0 ≤ period) (n : Nat) : Bounded period n [] := by
  intro first last hle _
  show period * 0 ≤ n * (period + (last - first))
  rw [Int.mul_zero]
  exact Int.mul_nonneg (Int.natCast_nonneg n) (by omega)

theorem Follows.nil {period : Int} (hperiod : 0 ≤ period) : Follows period [] := by
  intro n pre seg post heq _
  obtain ⟨h, rfl⟩ := List.append_eq_nil_iff.mp heq.symm
  obtain ⟨rfl, rfl⟩ := List.append_eq_nil_iff.mp h
  exact ⟨.nil hperiod n, fun _ _ a ha => nomatch ha⟩

section

variable {L : Limiter} {period start : Int} {n m : Nat} {times : List Int}
  {before seg seg' : List Answer}

theorem Bounded.append (h : Bounded period n seg) (h' : Bounded period n seg')
    (hseg : ∀ a ∈ seg, a.time + period ≤ start) (hseg' : ∀ a ∈ seg', start ≤ a.time)
    (hne : seg ≠ []) (hne' : seg' ≠ []) : Bounded period n (seg ++ seg') := by
  intro first last _ hall
  obtain ⟨a, ha⟩ := List.exists_mem_of_ne_nil seg hne
  obtain ⟨b, hb⟩ := List.exists_mem_of_ne_nil seg' hne'
  have hfirst := (hall a (List.mem_append_left _ ha)).1
  have hlast := (hall b (List.mem_append_right _ hb)).2
  have hgap := hseg a ha
  have hstart := hseg' b hb
  have hone := h first (start - period) (by omega) ?_
  · have htwo := h' start last (by omega) ?_
    · rw [admitted_append]
      push_cast
      have hsum : (n : Int) * (period + (start - period - first)) +
          n * (period + (last - start)) = n * (period + (last - first)) := by ring
      linarith
    · intro c hc
      exact ⟨hseg' c hc, (hall c (List.mem_append_right _ hc)).2⟩
  · intro c hc
    have hc' := hseg c hc
    exact ⟨(hall c (List.mem_append_left _ hc)).1, by omega⟩

theorem Limiter.Lawful.stretch (hlawful : L.Lawful period) (hperiod : 0 ≤ period) (hm : 0 < m)
    (hsorted : times.Pairwise (· ≤ ·)) {pre post : List Answer}
    (heq : L.answers m (L.direct m) times = pre ++ seg ++ post) (hlimit : ∀ a ∈ seg, a.limit = n) :
    Bounded period n seg ∧ (seg ≠ [] → n = m) := by
  have hmem : ∀ a ∈ seg, a.limit = m := by
    intro a ha
    have hmem : a ∈ L.answers m (L.direct m) times := by
      rw [heq]
      exact List.mem_append_left _ (List.mem_append_right _ ha)
    exact Limiter.limit_of_mem_answers hmem
  cases seg with
  | nil => exact ⟨.nil hperiod n, fun hne => absurd rfl hne⟩
  | cons a seg =>
    have hnm : n = m := (hlimit a List.mem_cons_self).symm.trans (hmem a List.mem_cons_self)
    rw [hnm]
    exact ⟨hlawful.bounded m hm times hsorted pre _ post heq, fun _ => rfl⟩

theorem Follows.append (hlawful : L.Lawful period) (hperiod : 0 ≤ period)
    (h : Follows period before) (hm : 0 < m) (hsorted : times.Pairwise (· ≤ ·))
    (hbefore : ∀ a ∈ before, a.time + period ≤ start) (hafter : ∀ t ∈ times, start ≤ t) :
    Follows period (before ++ L.answers m (L.direct m) times) := by
  intro n pre seg post heq hlimit
  rcases List.append_eq_append_iff.mp heq with ⟨rest, hpre, hanswers⟩ | ⟨rest, hbefore', -⟩
  · rcases List.append_eq_append_iff.mp hpre with ⟨inner, hbefore', rfl⟩ | ⟨inner, rfl, rfl⟩
    · -- the change is within the stretch
      have hinner : ∀ a ∈ inner, a.limit = n := fun a ha => hlimit a (List.mem_append_left _ ha)
      have hrest : ∀ a ∈ rest, a.limit = n := fun a ha => hlimit a (List.mem_append_right _ ha)
      obtain ⟨hbounded, hburst⟩ := h n pre inner [] (by rw [hbefore', List.append_nil]) hinner
      have hfresh : L.answers m (L.direct m) times = [] ++ rest ++ post := hanswers
      obtain ⟨hbounded', hnm⟩ := hlawful.stretch hperiod hm hsorted hfresh hrest
      refine ⟨?_, ?_⟩
      · by_cases hne : inner = []
        · rw [hne]
          exact hbounded'
        by_cases hne' : rest = []
        · rw [hne', List.append_nil]
          exact hbounded
        have hold : ∀ a ∈ inner, a.time + period ≤ start :=
          fun a ha => hbefore a (hbefore' ▸ List.mem_append_right _ ha)
        have hnew : ∀ a ∈ rest, start ≤ a.time := by
          intro a ha
          have hmem : a ∈ L.answers m (L.direct m) times := by
            rw [hanswers]
            exact List.mem_append_left _ ha
          exact hafter _ (Limiter.time_of_mem_answers hmem)
        exact hbounded.append hbounded' hold hnew hne hne'
      · intro hlower hlen a ha
        rw [List.length_append] at hlen
        rcases List.mem_append.mp ha with ha | ha
        · exact hburst hlower (by omega) a ha
        · rw [hnm (List.ne_nil_of_mem ha)] at hlen
          exact hlawful.burst hsorted hanswers (by omega) a ha
    · -- all of it is after the change
      obtain ⟨hbounded, hnm⟩ := hlawful.stretch hperiod hm hsorted hanswers hlimit
      refine ⟨hbounded, ?_⟩
      intro hlower hlen a ha
      rw [hnm (List.ne_nil_of_mem ha)] at hlower hlen
      cases inner using List.reverseRecOn with
      | nil => exact hlawful.burst hsorted hanswers hlen a ha
      | append_singleton inner b =>
        exfalso
        have hb : b.limit = m := by
          have hmem : b ∈ L.answers m (L.direct m) times := by
            rw [hanswers]
            simp
          exact Limiter.limit_of_mem_answers hmem
        rw [← List.append_assoc, List.getLast?_concat, Option.any_some, hb] at hlower
        exact Nat.lt_irrefl m (of_decide_eq_true hlower)
  · exact h n pre seg rest hbefore' hlimit

end

/-! ## The generic cell rate algorithm -/

/-- The theoretical arrival time of the next cell, in `n`ths of the clock's unit. -/
structure Gcra where
  n : Nat
  tat : Option Int
deriving DecidableEq

namespace Gcra

/-- A cell arrives early by up to a burst, and the next is due an interval after it. -/
def check (period : Int) (g : Gcra) (t : Int) : Option Int × Gcra :=
  let arrival := g.n * t
  let tat := g.tat.getD arrival
  if tat - (g.n - 1) * period ≤ arrival then
    (none, { g with tat := some (max tat arrival + period) })
  else (some ((tat - (g.n - 1) * period) / g.n), g)

end Gcra

abbrev gcra (period : Int) : Limiter := ⟨Gcra, fun n => ⟨n, none⟩, Gcra.check period⟩

section

variable {period first last : Int} {n : Nat} {times : List Int} {g : Gcra} {t : Int}

theorem gcra_admits {out : Option Int} {g' : Gcra} (h : g.check period t = (out, g'))
    (hout : out.isNone = true) :
    g.tat.getD (g.n * t) - (g.n - 1) * period ≤ g.n * t ∧
      g' = { g with tat := some (max (g.tat.getD (g.n * t)) (g.n * t) + period) } := by
  unfold Gcra.check at h
  dsimp only at h
  split at h
  · next hle =>
    cases h
    exact ⟨hle, rfl⟩
  · cases h
    cases hout

theorem gcra_refuses {out : Option Int} {g' : Gcra} (h : g.check period t = (out, g'))
    (hout : out.isNone = false) : g' = g := by
  unfold Gcra.check at h
  dsimp only at h
  split at h
  · cases h
    cases hout
  · cases h
    rfl

theorem gcra_n (g : Gcra) (times : List Int) : ((gcra period).after g times).n = g.n := by
  induction times generalizing g with
  | nil => rfl
  | cons t ts ih =>
    show ((gcra period).after (g.check period t).2 ts).n = g.n
    rw [ih]
    unfold Gcra.check
    dsimp only
    split
    · rfl
    · rfl

theorem gcra_tat (hperiod : 0 ≤ period) (hn : 0 < g.n)
    (htimes : ∀ t ∈ times, first ≤ t ∧ t ≤ last) :
    admitted ((gcra period).answers n g times) = 0 ∨
    ∃ tat, ((gcra period).after g times).tat = some tat ∧
      g.n * first + period * admitted ((gcra period).answers n g times) ≤ tat ∧
      tat ≤ g.n * last + g.n * period := by
  induction times using List.reverseRecOn with
  | nil => exact .inl rfl
  | append_singleton times t ih =>
    have ih := ih fun t ht => htimes t (List.mem_append_left _ ht)
    obtain ⟨hfirst, hlast⟩ := htimes t (List.mem_append_right _ List.mem_cons_self)
    obtain ⟨out, g', hcheck⟩ : ∃ out g',
        ((gcra period).after g times : Gcra).check period t = (out, g') := ⟨_, _, rfl⟩
    have hg' : (gcra period).after g (times ++ [t]) = g' := by
      rw [Limiter.after_append]
      exact congrArg Prod.snd hcheck
    have hadmitted : admitted ((gcra period).answers n g (times ++ [t])) =
        admitted ((gcra period).answers n g times) + if out.isNone then 1 else 0 := by
      rw [Limiter.answers_snoc, admitted_append]
      have hout : ((gcra period).check ((gcra period).after g times) t).1 = out :=
        congrArg Prod.fst hcheck
      rw [hout]
      cases out <;> rfl
    have hnsame : ((gcra period).after g times).n = g.n := gcra_n g times
    rw [hg', hadmitted]
    cases hout : out.isNone with
    | false =>
      rw [gcra_refuses hcheck hout]
      simpa using ih
    | true =>
      right
      obtain ⟨hle, rfl⟩ := gcra_admits hcheck hout
      rw [hnsame] at hle ⊢
      have hfirst' : (g.n : Int) * first ≤ g.n * t :=
        Int.mul_le_mul_of_nonneg_left hfirst (Int.natCast_nonneg _)
      have hlast' : (g.n : Int) * t ≤ g.n * last :=
        Int.mul_le_mul_of_nonneg_left hlast (Int.natCast_nonneg _)
      have hspare : ((g.n : Int) - 1) * period = g.n * period - period := by ring
      have hnonneg : 0 ≤ ((g.n : Int) - 1) * period := Int.mul_nonneg (by omega) hperiod
      have hone : ∀ k : Nat, period * ((k + if true = true then 1 else 0 : Nat) : Int) =
          period * k + period := by
        intro k
        rw [if_pos rfl]
        push_cast
        ring
      refine ⟨_, rfl, ?_, ?_⟩
      · rw [hone]
        rcases ih with hzero | ⟨tat, htat, hge, -⟩
        · rw [hzero, Int.natCast_zero, Int.mul_zero]
          omega
        · rw [htat, Option.getD_some]
          omega
      · omega

theorem gcra_bounded (hperiod : 0 ≤ period) (hn : 0 < g.n) :
    Bounded period g.n ((gcra period).answers n g times) := by
  intro first last hle hall
  have htimes : ∀ t ∈ times, first ≤ t ∧ t ≤ last := by
    intro t ht
    have hmap : ((gcra period).answers n g times).map Answer.time = times :=
      Limiter.map_time_answers
    rw [← hmap] at ht
    obtain ⟨a, ha, rfl⟩ := List.mem_map.mp ht
    exact hall a ha
  rcases gcra_tat (n := n) hperiod hn htimes with hzero | ⟨tat, -, hge, hle'⟩
  · rw [hzero, Int.natCast_zero, Int.mul_zero]
    exact Int.mul_nonneg (Int.natCast_nonneg _) (by omega)
  · have hsum : (g.n : Int) * (period + (last - first)) =
        g.n * last + g.n * period - g.n * first := by ring
    omega

theorem gcra_full (hperiod : 0 ≤ period) (hsorted : times.Pairwise (· ≤ ·))
    (hlen : times.length ≤ n) :
    (∀ a ∈ (gcra period).answers n ⟨n, none⟩ times, a.admitted = true) ∧
    ∀ t, (∀ t' ∈ times, t' ≤ t) →
      ((gcra period).after ⟨n, none⟩ times).tat.getD (n * t) ≤ n * t + times.length * period := by
  induction times using List.reverseRecOn with
  | nil =>
    refine ⟨fun a ha => absurd ha List.not_mem_nil, ?_⟩
    intro t _
    show (n : Int) * t ≤ n * t + ((0 : Nat) : Int) * period
    omega
  | append_singleton times t ih =>
    rw [List.length_append, List.length_singleton] at hlen
    obtain ⟨hsorted', -, hlater⟩ := List.pairwise_append.mp hsorted
    obtain ⟨hadmitted, htat⟩ := ih hsorted' (Nat.le_of_succ_le hlen)
    have htat := htat t fun t' ht' => hlater t' ht' t List.mem_cons_self
    have hnsame : ((gcra period).after ⟨n, none⟩ times).n = n := gcra_n _ times
    have hroom : (times.length : Int) * period ≤ ((n : Int) - 1) * period :=
      Int.mul_le_mul_of_nonneg_right (by omega) hperiod
    have hcheck : ((gcra period).after ⟨n, none⟩ times).check period t =
        (none, ⟨n, some (max (((gcra period).after ⟨n, none⟩ times).tat.getD (n * t)) (n * t) +
          period)⟩) := by
      unfold Gcra.check
      dsimp only
      rw [hnsame, if_pos (by omega)]
    constructor
    · intro a ha
      rw [Limiter.answers_snoc, List.mem_append, List.mem_singleton] at ha
      rcases ha with ha | rfl
      · exact hadmitted a ha
      · show (((gcra period).after ⟨n, none⟩ times).check period t).1.isNone = true
        rw [hcheck]
        rfl
    · intro t₁ hle
      have hle₁ : (n : Int) * t ≤ n * t₁ :=
        Int.mul_le_mul_of_nonneg_left (hle t (List.mem_append_right _ List.mem_cons_self))
          (Int.natCast_nonneg n)
      have hmore : ((times.length + 1 : Nat) : Int) * period = times.length * period + period := by
        push_cast
        ring
      have hnonneg : 0 ≤ (times.length : Int) * period :=
        Int.mul_nonneg (Int.natCast_nonneg _) hperiod
      have hafter : (gcra period).after ⟨n, none⟩ (times ++ [t]) =
          (((gcra period).after ⟨n, none⟩ times).check period t).2 := Limiter.after_append
      rw [hafter, hcheck, List.length_append, List.length_singleton, Option.getD_some, hmore]
      omega

end

theorem gcra_lawful {period : Int} (hperiod : 0 ≤ period) : (gcra period).Lawful period := by
  refine ⟨?_, ?_⟩
  · intro n hn times _ pre seg post heq
    obtain ⟨ts, ts', -, hpre, -⟩ := Limiter.answers_eq_append heq
    obtain ⟨ts₁, ts₂, -, -, rfl⟩ := Limiter.answers_eq_append hpre.symm
    have hnsame : ((gcra period).after ⟨n, none⟩ ts₁).n = n := gcra_n _ ts₁
    have hbounded : Bounded period ((gcra period).after ⟨n, none⟩ ts₁).n
        ((gcra period).answers n ((gcra period).after ⟨n, none⟩ ts₁) ts₂) :=
      gcra_bounded hperiod (by rw [hnsame]; exact hn)
    rw [hnsame] at hbounded
    exact hbounded
  · intro n times hsorted hlen
    exact (gcra_full hperiod hsorted hlen).1

end Limits
