import Mathlib.Data.Prod.Lex
import Uptimepage.Domain.EscalationPolicy

/-!
# The walk of a ladder

`next_step` is called with the cursor its last answer left, and with the policy as it is by
then.
-/

namespace Uptimepage

/-- What `next_step` reads of a policy. -/
structure Rungs where
  steps : List EscalationStep
  repeatCount : Int

/-- The level and the round of an incident. -/
structure Cursor where
  level : Int
  round : Int

def Rungs.next (p : Rungs) (c : Cursor) : EscalationDecision :=
  nextStep p.steps p.repeatCount c.level c.round

/-- The cursor that is stored with a decision. -/
def Cursor.after (c : Cursor) : EscalationDecision → Cursor
  | .page level round _ => ⟨level, round⟩
  | .exhausted => c

/-- The answer to call `n`, where `p k` is the policy at call `k`. -/
def decisionAt : (Nat → Rungs) → Cursor → Nat → EscalationDecision
  | p, c, 0 => (p 0).next c
  | p, c, n + 1 => decisionAt (fun k => p (k + 1)) (c.after ((p 0).next c)) n

def EscalationStep.paged (round : Int) (s : EscalationStep) : EscalationDecision :=
  .page s.level round s.delaySecs

/-- `n` rounds, from `round` on. -/
def Rungs.rounds (p : Rungs) (round : Int) (n : Nat) : List EscalationDecision :=
  (List.range n).flatMap fun k : Nat => p.steps.map (EscalationStep.paged (round + k))

section Unedited
variable {p : Rungs} {c : Cursor} {ds : List EscalationDecision}

/-- The walk gives these answers and is exhausted then. -/
def Walks (p : Rungs) : Cursor → List EscalationDecision → Prop
  | c, [] => p.next c = .exhausted
  | c, d :: ds => p.next c = d ∧ Walks p (c.after d) ds

theorem decisionAt_of_walks (h : Walks p c ds) (n : Nat) :
    decisionAt (fun _ => p) c n = ds[n]?.getD .exhausted := by
  induction n generalizing c ds with
  | zero =>
    cases ds with
    | nil => exact h
    | cons d ds => exact h.1
  | succ n ih =>
    cases ds with
    | nil =>
      have hnext : p.next c = .exhausted := h
      rw [decisionAt, hnext]
      exact ih h
    | cons d ds =>
      rw [decisionAt, h.1]
      exact ih h.2

theorem next_of_find? {s : EscalationStep}
    (h : p.steps.find? (fun s => decide (c.level < s.level)) = some s) :
    p.next c = s.paged c.round := by
  unfold Rungs.next nextStep
  cases hp : p.steps with
  | nil =>
    rw [hp] at h
    cases h
  | cons first rest =>
    rw [hp] at h
    simp only [h]
    rfl

theorem next_of_top (htop : ∀ s ∈ p.steps, s.level ≤ c.level) :
    p.next c = match p.steps with
      | [] => .exhausted
      | first :: _ =>
        if c.round < p.repeatCount then first.paged (c.round + 1) else .exhausted := by
  have hnone : p.steps.find? (fun s => decide (c.level < s.level)) = none := by
    simpa using htop
  unfold Rungs.next nextStep
  cases hp : p.steps with
  | nil => rfl
  | cons first rest =>
    rw [hp] at hnone
    simp only [hnone]
    rfl

theorem rounds_succ (p : Rungs) (round : Int) (n : Nat) : p.rounds round (n + 1) =
    p.steps.map (EscalationStep.paged round) ++ p.rounds (round + 1) n := by
  have hk (k : Nat) : round + (k.succ : Int) = round + 1 + k := by omega
  unfold Rungs.rounds
  rw [List.range_succ_eq_map, List.flatMap_cons, List.flatMap_map]
  simp only [hk, Int.ofNat_zero, Int.add_zero]

theorem walks_round (hsorted : p.steps.Pairwise fun s s' => s.level < s'.level)
    {pre post : List EscalationStep} (hsteps : p.steps = pre ++ post) {level round : Int}
    (hpre : ∀ s ∈ pre, s.level ≤ level) (hpost : ∀ s ∈ post, level < s.level)
    (hrest : ∀ top, (∀ s ∈ p.steps, s.level ≤ top) → Walks p ⟨top, round⟩ ds) :
    Walks p ⟨level, round⟩ (post.map (EscalationStep.paged round) ++ ds) := by
  induction post generalizing pre level with
  | nil => exact hrest level (by rwa [hsteps, List.append_nil])
  | cons s post ih =>
    have hfind : p.steps.find? (fun s => decide (level < s.level)) = some s := by
      rw [hsteps, List.find?_append, List.find?_eq_none.mpr (by simpa using hpre), Option.none_or]
      simp [hpost s List.mem_cons_self]
    have hs := List.pairwise_append.mp (hsteps ▸ hsorted)
    refine ⟨next_of_find? hfind, ih (show p.steps = (pre ++ [s]) ++ post by simp [hsteps]) ?_ ?_⟩
    · intro u hu
      rcases List.mem_append.mp hu with hu | hu
      · exact (hs.2.2 u hu s List.mem_cons_self).le
      · rw [List.mem_singleton.mp hu]
    · exact (List.pairwise_cons.mp hs.2.1).1

theorem walks_rounds (hsorted : p.steps.Pairwise fun s s' => s.level < s'.level) (n : Nat)
    {top round : Int} (htop : ∀ s ∈ p.steps, s.level ≤ top)
    (hleft : (p.repeatCount - round).toNat = n) :
    Walks p ⟨top, round⟩ (p.rounds (round + 1) n) := by
  have hnext := next_of_top (c := ⟨top, round⟩) htop
  induction n generalizing round top with
  | zero =>
    refine hnext.trans ?_
    split
    · rfl
    · exact if_neg (by dsimp only; omega)
  | succ n ih =>
    have hrest : ∀ top, (∀ s ∈ p.steps, s.level ≤ top) →
        Walks p ⟨top, round + 1⟩ (p.rounds (round + 1 + 1) n) :=
      fun top htop => ih htop (by omega) (next_of_top htop)
    rw [rounds_succ]
    cases hp : p.steps with
    | nil =>
      have hempty : p.rounds (round + 1 + 1) n = [] := by
        unfold Rungs.rounds
        simp [hp]
      rw [hempty]
      rw [hp] at hnext
      exact hnext
    | cons first rest =>
      have hround : round < p.repeatCount := by omega
      rw [hp] at hnext
      refine ⟨hnext.trans (if_pos hround), walks_round hsorted
        (show p.steps = [first] ++ rest from hp) ?_ ?_ hrest⟩
      · intro s hs
        rw [List.mem_singleton.mp hs]
      · rw [hp] at hsorted
        exact (List.pairwise_cons.mp hsorted).1

end Unedited

/-- The order of cursors: the round first. -/
def Cursor.key (c : Cursor) : Int ×ₗ Int := toLex (c.round, c.level)

theorem nextStep_grows {p : Rungs} {c : Cursor} {level round delaySecs : Int}
    (h : p.next c = .page level round delaySecs) :
    (∃ s ∈ p.steps, s.level = level) ∧
      (c.round = round ∧ c.level < level ∨
        c.round + 1 = round ∧ c.round < p.repeatCount) := by
  unfold Rungs.next nextStep at h
  split at h
  · cases h
  · next first rest hp =>
    split at h
    · next s hs =>
      cases h
      exact ⟨⟨s, List.mem_of_find?_eq_some hs, rfl⟩,
        .inl ⟨rfl, by simpa using List.find?_some hs⟩⟩
    · split at h
      · next hlt =>
        cases h
        exact ⟨⟨first, hp ▸ List.mem_cons_self, rfl⟩, .inr ⟨rfl, hlt⟩⟩
      · cases h

theorem exists_exhausted {most last : Int} (p : Nat → Rungs)
    (hp : ∀ k, (p k).repeatCount ≤ most ∧ ∀ s ∈ (p k).steps, s.level ≤ last) (c : Cursor) :
    ∃ n, decisionAt p c n = .exhausted := by
  cases hnext : (p 0).next c with
  | exhausted => exact ⟨0, hnext⟩
  | page level round delaySecs =>
    obtain ⟨⟨s, hs, hlevel⟩, hgrows⟩ := nextStep_grows hnext
    have hmost := (hp 0).1
    have hlast := (hp 0).2 s hs
    obtain ⟨n, hn⟩ := exists_exhausted (fun k => p (k + 1)) (fun k => hp (k + 1)) ⟨level, round⟩
    refine ⟨n + 1, ?_⟩
    rw [decisionAt, hnext]
    exact hn
termination_by ((most - c.round).toNat, (last - c.level).toNat)
decreasing_by
  rcases hgrows with ⟨heq, hlt⟩ | ⟨heq, hlt⟩
  · subst heq
    exact Prod.Lex.right _ (by omega)
  · exact Prod.Lex.left _ _ (by omega)

structure Rungs.Ordered (p : Rungs) : Prop where
  sorted : p.steps.Pairwise fun s s' => s.level < s'.level
  positive : ∀ s ∈ p.steps, 0 < s.level

/-- A ladder that nobody edits is walked `repeatCount + 1` times and no further.  One that is
edited between any two calls, its levels being of 32 bits, is exhausted in the end: each page
moves the cursor on. -/
theorem ladder_walked {p : Rungs} (hp : p.Ordered) {q : Nat → Rungs} {most : Int}
    (hq : ∀ k, (q k).repeatCount ≤ most ∧ ∀ s ∈ (q k).steps, s.level ≤ 2147483647) :
    (∀ n, decisionAt (fun _ => p) ⟨0, 0⟩ n =
      (p.rounds 0 (p.repeatCount.toNat + 1))[n]?.getD .exhausted) ∧
    (∀ k c level round delaySecs, (q k).next c = .page level round delaySecs →
      c.key < (Cursor.mk level round).key) ∧
    ∀ c, ∃ n, decisionAt q c n = .exhausted := by
  refine ⟨fun n => ?_, fun k c level round delaySecs h => ?_, exists_exhausted q hq⟩
  · rw [rounds_succ]
    refine decisionAt_of_walks (walks_round hp.sorted
      (show p.steps = [] ++ p.steps from rfl) ?_ hp.positive ?_) n
    · intro s hs
      cases hs
    · exact fun top htop => walks_rounds hp.sorted _ htop (by rw [Int.sub_zero])
  · rw [Cursor.key, Cursor.key, Prod.Lex.toLex_lt_toLex]
    rcases (nextStep_grows h).2 with ⟨heq, hlt⟩ | ⟨heq, -⟩
    · exact .inr ⟨heq, hlt⟩
    · exact .inl (by dsimp only; omega)

/-- Two rungs, walked twice; and a ladder that at each other call has lost its first rung and has
a third one. -/
theorem ladder_walked_two :
    let rungs : Rungs := ⟨[⟨1, 60, []⟩, ⟨2, 300, []⟩], 1⟩
    let edited : Rungs := ⟨[⟨2, 300, []⟩, ⟨3, 600, []⟩], 1⟩
    (∀ n, decisionAt (fun _ => rungs) ⟨0, 0⟩ n =
      [.page 1 0 60, .page 2 0 300, .page 1 1 60, .page 2 1 300][n]?.getD .exhausted) ∧
    ∃ n, decisionAt (fun k => if k % 2 = 0 then rungs else edited) ⟨0, 0⟩ n = .exhausted := by
  intro rungs edited
  have hq : ∀ k, (if k % 2 = 0 then rungs else edited).repeatCount ≤ 1 ∧
      ∀ s ∈ (if k % 2 = 0 then rungs else edited).steps, s.level ≤ 2147483647 := by
    intro k
    split <;> exact ⟨le_refl 1, by decide⟩
  have hrungs : rungs.Ordered := ⟨by decide, by decide⟩
  have h := ladder_walked hrungs hq
  exact ⟨h.1, h.2.2 ⟨0, 0⟩⟩

end Uptimepage
