import Mathlib.Order.Bounds.Basic
import Mathlib.Tactic.Ring
import Uptimepage.Scheduler.Runner

/-!
# The grid of due times

`next_tick` with the checks of the standard library's arithmetic: an `Instant` has its seconds in
an `i64`, a `Duration` in a `u64`, and a sum or product past the end panics.
-/

namespace Uptimepage.Scheduler

open Async

/-- One past the last `Instant`, in nanoseconds. -/
def instantEnd : Int := 2 ^ 63 * 10 ^ 9

def durationEnd : Nat := 2 ^ 64 * 10 ^ 9

def IsInstant (t : Int) : Prop := -instantEnd ≤ t ∧ t < instantEnd

/-- `Instant + Duration`.  `none` is a panic. -/
def instantAdd (t : Int) (d : Nat) : Option Int :=
  if t + d < instantEnd then some (t + d) else none

/-- `Duration * u32`. -/
def durationMul (d k : Nat) : Option Nat := if d * k < durationEnd then some (d * k) else none

def nextTickChecked (sched : Int) (base : Nat) (now : Int) : Option Int := do
  let next ← instantAdd sched base
  if now < next then return next
  let skips := min ((now - next).toNat / max base 1 + 1) (2 ^ 32 - 1)
  let skipped ← durationMul base skips
  instantAdd next skipped

/-- The points of the grid of `sched` after `now`. -/
def gridAfter (sched : Int) (base : Nat) (now : Int) : Set Int :=
  { t | ∃ k : Nat, 1 ≤ k ∧ t = sched + k * base ∧ now < t }

/-- What `next_tick` skips fits its counter. -/
def Countable (sched : Int) (base : Nat) (now : Int) : Prop :=
  (now - (sched + base)).toNat / base + 1 < 2 ^ 32

section

variable {hash : Uuid → Nat} {s t : State} {d : Drain} {due : Due} {rest : Heap} {id : Uuid}
  {seq base : Nat} {sched now origin : Int}

theorem now_lt_grid_iff (hbase : 0 < base) :
    now < sched + base * 2 ^ 32 ↔ Countable sched base now := by
  unfold Countable
  rw [← Nat.lt_sub_iff_add_lt, Nat.div_lt_iff_lt_mul hbase]
  omega

theorem nextTick_grid (sched : Int) (base : Nat) (now : Int) :
    ∃ k : Nat, 1 ≤ k ∧ nextTick sched base now = sched + k * base := by
  unfold nextTick
  dsimp only
  split
  · exact ⟨1, Nat.le_refl 1, by omega⟩
  · refine ⟨1 + min ((now - (sched + base)).toNat / max base 1 + 1) (2 ^ 32 - 1),
      Nat.le_add_right 1 _, ?_⟩
    push_cast
    ring

theorem isLeast_nextTick (hbase : 0 < base) (hcount : Countable sched base now) :
    IsLeast (gridAfter sched base now) (nextTick sched base now) := by
  have hafter := now_lt_nextTick.2 ((now_lt_grid_iff hbase).2 hcount)
  refine ⟨?_, ?_⟩
  · obtain ⟨k, hk, hgrid⟩ := nextTick_grid sched base now
    exact ⟨k, hk, hgrid, hafter⟩
  · rintro t ⟨k, hk, rfl, hlater⟩
    unfold nextTick
    dsimp only
    have hfirst : (base : Int) ≤ k * base := by
      have := Nat.mul_le_mul_right base hk
      rw [Nat.one_mul] at this
      exact_mod_cast this
    split
    · omega
    · next hbehind =>
      unfold Countable at hcount
      rw [Nat.max_eq_left hbase, Nat.min_eq_left (by omega)]
      obtain ⟨behind, hnow⟩ : ∃ n : Nat, now = sched + base + n :=
        ⟨(now - (sched + base)).toNat, by omega⟩
      have htoNat : (now - (sched + base)).toNat = behind := by omega
      rw [htoNat]
      -- the point lies more than `behind` past the first, so as many whole intervals
      have hpast : behind < (k - 1) * base := by
        have hkb : (k - 1 + 1) * base = k * base := by rw [Nat.sub_add_cancel hk]
        rw [Nat.add_mul, Nat.one_mul] at hkb
        have hcast : ((k * base : Nat) : Int) = k * base := by push_cast; rfl
        omega
      have hdiv : behind / base + 1 ≤ k - 1 := (Nat.div_lt_iff_lt_mul hbase).mpr hpast
      have hmul := Nat.mul_le_mul_left base hdiv
      have hk' : base * (k - 1) + base = base * k := by
        rw [← Nat.mul_succ, Nat.succ_eq_add_one, Nat.sub_add_cancel hk]
      have hcast : ((base * k : Nat) : Int) = k * base := by push_cast; ring
      omega

theorem nextTickChecked_eq (hsched : IsInstant sched) (hnow : IsInstant now) :
    nextTickChecked sched base now =
      if nextTick sched base now < instantEnd then some (nextTick sched base now) else none := by
  obtain ⟨hlow, -⟩ := hsched
  obtain ⟨-, hend⟩ := hnow
  unfold nextTickChecked instantAdd nextTick
  dsimp only
  by_cases hnext : sched + base < instantEnd
  · simp only [if_pos hnext, Option.bind_eq_bind, Option.bind_some]
    by_cases hlater : now < sched + base
    · rw [if_pos hlater, if_pos hlater, if_pos hnext]
      rfl
    · rw [if_neg hlater, if_neg hlater]
      unfold durationMul
      split
      · rfl
      · next hover =>
        have hends : (durationEnd : Int) = instantEnd + instantEnd := by decide
        rw [if_neg (by omega)]
        rfl
  · have hlater : now < sched + base := by omega
    rw [if_neg hnext, if_pos hlater, if_neg hnext]
    rfl

/-! ## A drain ends -/

/-- What is due, by how long it has been due. -/
def backlog (now : Int) (heap : Heap) : Nat := (heap.map fun due => (now + 1 - due.instant).toNat).sum

theorem backlog_push (now : Int) (rest : Heap) (due : Due) :
    backlog now (push rest due) = (now + 1 - due.instant).toNat + backlog now rest := by
  unfold backlog push
  rw [((List.perm_orderedInsert _ due rest).map _).sum_nat, List.map_cons, List.sum_cons]

theorem le_anchor (hash : Uuid → Nat) (due : Due) (base : Nat) : due.instant ≤ anchor hash due base := by
  unfold anchor
  split <;> omega

/-- A turn whose popped target has a positive interval, or a refresh. -/
def draining (s : State) : Event → Bool
  | .turn => s.heap.head?.all fun due =>
      (s.registry.lookup due.id).all fun st => decide (0 < st.target.interval)
  | .refresh _ => true
  | _ => false

theorem backlog_drainTurn (hdrain : s.drain = some d) (hok : draining s .turn = true) :
    (drainTurn hash s d).drain = none ∨
      ∃ d', (drainTurn hash s d).drain = some d' ∧ d'.now = d.now ∧
        backlog d.now (drainTurn hash s d).heap < backlog d.now s.heap := by
  unfold drainTurn
  split
  · exact .inl rfl
  · next due rest hheap =>
    have hpop : backlog d.now s.heap = (d.now + 1 - due.instant).toNat + backlog d.now rest := by
      rw [hheap]
      rfl
    split
    · next hdue =>
      right
      have hdropped : backlog d.now rest < backlog d.now s.heap := by omega
      split
      · exact ⟨d, hdrain, rfl, hdropped⟩
      · split
        · exact ⟨d, hdrain, rfl, hdropped⟩
        · next st hst =>
          refine ⟨_, rfl, rfl, ?_⟩
          have hpos : 0 < st.target.interval := by simpa [draining, hheap, hst] using hok
          have hfirst := le_anchor hash due st.target.interval
          obtain ⟨k, hk, hgrid⟩ :=
            nextTick_grid (anchor hash due st.target.interval) st.target.interval d.now
          have hstep : (st.target.interval : Int) ≤ k * st.target.interval := by
            exact_mod_cast Nat.le_mul_of_pos_left st.target.interval hk
          have hlater : due.instant <
              nextTick (anchor hash due st.target.interval) st.target.interval d.now := by omega
          show backlog d.now (push rest _) < _
          rw [backlog_push]
          dsimp only
          omega
    · exact .inl rfl

theorem step_refresh {fresh : List ScheduledTarget} (h : step hash s (.refresh fresh) = some t) :
    t.drain = s.drain ∧ t.heap = s.heap := by
  unfold step at h
  cases h
  exact ⟨rfl, rfl⟩

theorem no_turn {events : List Event} (hdrain : s.drain = none)
    (h : steps (step hash) s events = some t) (hok : Allowed (step hash) (fun s e => draining s e = true) s events) :
    events.count .turn = 0 := by
  induction events generalizing s with
  | nil => rfl
  | cons e events ih =>
    unfold steps at h
    split at h
    · cases h
    · next u hu =>
      obtain ⟨he, hrest⟩ := hok u hu
      cases e with
      | refresh fresh =>
        rw [List.count_cons_of_ne (by simp)]
        exact ih ((step_refresh hu).1.trans hdrain) h hrest
      | applyDiff now => exact absurd he Bool.false_ne_true
      | drainDue now => exact absurd he Bool.false_ne_true
      | turn => simp [step, hdrain] at hu

theorem turns_le_backlog {events : List Event} (hdrain : s.drain = some d)
    (h : steps (step hash) s events = some t) (hok : Allowed (step hash) (fun s e => draining s e = true) s events) :
    events.count .turn ≤ backlog d.now s.heap + 1 := by
  induction events generalizing s d with
  | nil => exact Nat.zero_le _
  | cons e events ih =>
    unfold steps at h
    split at h
    · cases h
    · next u hu =>
      obtain ⟨he, hrest⟩ := hok u hu
      cases e with
      | refresh fresh =>
        obtain ⟨hsame, hheap⟩ := step_refresh hu
        rw [List.count_cons_of_ne (by simp), ← hheap]
        exact ih (hsame.trans hdrain) h hrest
      | applyDiff now => exact absurd he Bool.false_ne_true
      | drainDue now => exact absurd he Bool.false_ne_true
      | turn =>
        rw [List.count_cons_self]
        simp only [step, hdrain, Option.some.injEq] at hu
        subst hu
        have hturn := @backlog_drainTurn hash _ _ hdrain he
        rcases hturn with hnone | ⟨d', hd', hnow, hless⟩
        · have hzero : events.count .turn = 0 := no_turn hnone h hrest
          omega
        · have hle := ih hd' h hrest
          rw [hnow] at hle
          omega

/-! ## The phase -/

/-- The entries that carry `seq` of `id` stand for points of the grid of `origin`. -/
def OnGrid (hash : Uuid → Nat) (id : Uuid) (seq base : Nat) (origin : Int) (s : State) : Prop :=
  ∀ due ∈ s.heap, Due.carries id seq due = true → (base : Int) ∣ anchor hash due base - origin

instance : Decidable (OnGrid hash id seq base origin s) :=
  inferInstanceAs (Decidable (∀ due ∈ s.heap, _))

/-- When an entry that carries `seq` is popped, the target's interval is `base`. -/
def paced (id : Uuid) (seq base : Nat) (s : State) : Event → Bool
  | .turn => s.heap.head?.all fun due =>
      !Due.carries id seq due || (s.registry.lookup id).all fun st => st.target.interval == base
  | _ => true

theorem OnGrid.turn (h : OnGrid hash id seq base origin s) (hpaced : paced id seq base s .turn = true)
    (ht : Turn hash s d t) : OnGrid hash id seq base origin t := by
  cases ht with
  | done => exact h
  | stale hheap _ => exact fun due hdue => h due (hheap ▸ List.mem_cons_of_mem _ hdue)
  | forgotten hheap _ => exact fun due hdue => h due (hheap ▸ List.mem_cons_of_mem _ hdue)
  | @dispatched popped rest st hheap hreached hlive hknown =>
    intro due hdue hcarries
    rcases mem_push.1 hdue with rfl | hdue
    · have hpopped : Due.carries id seq popped = true := hcarries
      obtain rfl := (carries_iff.1 hpopped).1
      obtain rfl : st.target.interval = base := by
        simpa [paced, hheap, hpopped, hknown] using hpaced
      have hold := h popped (hheap ▸ List.mem_cons_self) hpopped
      obtain ⟨k, -, hgrid⟩ := nextTick_grid (anchor hash popped st.target.interval)
        st.target.interval d.now
      have hsplit : nextTick (anchor hash popped st.target.interval) st.target.interval d.now -
          origin = (anchor hash popped st.target.interval - origin) + k * st.target.interval := by
        rw [hgrid]
        ring
      show (st.target.interval : Int) ∣ nextTick _ _ _ - origin
      rw [hsplit]
      exact Int.dvd_add hold (Dvd.intro_left _ rfl)
    · exact h due (hheap ▸ List.mem_cons_of_mem _ hdue) hcarries

theorem mem_heap_schedules {n : Nat} {l : List ScheduledTarget} (h : Agree n s)
    (hn : n + l.length ≤ 2 ^ 64) (hdue : due ∈ (l.foldl (Scheduler.schedule hash now) s).heap) :
    due ∈ s.heap ∨ n ≤ due.seq := by
  induction l generalizing n s with
  | nil => exact .inl hdue
  | cons st l ih =>
    rw [List.length_cons] at hn
    rcases ih (h.schedule hash now st (by omega)) (by omega) hdue with hmem | hlater
    · rcases mem_push.1 hmem with rfl | hmem
      · have hnext : s.nextSeq = n := h.next.trans (Nat.mod_eq_of_lt (by omega))
        exact .inr hnext.ge
      · exact .inl hmem
    · exact .inr (by omega)

theorem OnGrid.step {e : Event} (h : OnGrid hash id seq base origin s)
    (hpaced : paced id seq base s e = true) (hagree : Agree s.schedules s) (hseq : seq < s.schedules)
    (hstep : step hash s e = some t) (ht : t.schedules < 2 ^ 64) :
    OnGrid hash id seq base origin t := by
  rcases step_cases hstep with ⟨fresh, -, rfl⟩ | ⟨now, diff, rest, -, -, -, rfl⟩ |
    ⟨now, -, -, rfl⟩ | ⟨d, rfl, -, hturn⟩
  · exact h
  · intro due hdue hcarries
    have hcount : s.schedules + (diff.added ++ diff.updated).length < 2 ^ 64 := by
      have hsum : State.schedules { Scheduler.applyDiff hash now s diff with
          channel := rest, applied := diff :: s.applied } =
          (diff.added ++ diff.updated).length + s.schedules := by
        show (List.map _ (diff :: s.applied)).sum = _
        rw [List.map_cons, List.sum_cons]
        show diff.ids.length + _ = _
        rw [RegistryDiff.ids, List.length_map]
        rfl
      rw [hsum] at ht
      omega
    rcases mem_heap_schedules hagree (Nat.le_of_lt hcount) hdue with hold | hlater
    · exact h due hold hcarries
    · have := (carries_iff.1 hcarries).2
      omega
  · exact h
  · exact h.turn hpaced hturn

end

/-- **next_tick lands on the grid**: on the first point after now, where what it skips fits its
counter.  It panics exactly where that point is past the last instant.  A drain ends, and while a
target keeps its interval its entry keeps the phase of its first probe. -/
theorem next_tick_on_grid :
    (∀ (sched : Int) (base : Nat) (now : Int), 0 < base → IsInstant sched → IsInstant now →
      Countable sched base now →
        IsLeast (gridAfter sched base now) (nextTick sched base now) ∧
        nextTickChecked sched base now =
          if nextTick sched base now < instantEnd then some (nextTick sched base now)
          else none) ∧
    (∀ (hash : Uuid → Nat) (s t : State) (d : Drain) (events : List Event), s.drain = some d →
      steps (step hash) s events = some t → Allowed (step hash) (fun s e => draining s e = true) s events →
        events.count .turn ≤ backlog d.now s.heap + 1) ∧
    (∀ (hash : Uuid → Nat) (s t : State) (id : Uuid) (seq base : Nat) (origin : Int),
      Run (step hash) (fun _ _ => True) .init s → seq < s.schedules →
      OnGrid hash id seq base origin s → Run (step hash) (fun s e => paced id seq base s e = true) s t →
      t.schedules < 2 ^ 64 → OnGrid hash id seq base origin t) := by
  refine ⟨?_, fun _ _ _ _ _ hdrain h hok => turns_le_backlog hdrain h hok, ?_⟩
  · intro sched base now hbase hsched hnow hcount
    exact ⟨isLeast_nextTick hbase hcount, nextTickChecked_eq hsched hnow⟩
  · intro hash s t id seq base origin hs hseq hgrid hrun ht
    have hboth := hrun.invariant
      (I := fun u => s.schedules ≤ u.schedules ∧
        (u.schedules < 2 ^ 64 → Agree u.schedules u ∧ OnGrid hash id seq base origin u))
      ⟨Nat.le_refl _, fun hlt => ⟨agree_of_run hs hlt, hgrid⟩⟩ ?_
    · exact (hboth.2 ht).2
    · rintro u e v ⟨hle, hu⟩ hpaced hstep
      obtain ⟨hmono, hagree⟩ := Agree.step (fun hlt => (hu hlt).1) hstep
      refine ⟨Nat.le_trans hle hmono, fun hlt => ⟨hagree hlt, ?_⟩⟩
      obtain ⟨hold, hon⟩ := hu (Nat.lt_of_le_of_lt hmono hlt)
      exact hon.step hpaced hold (Nat.lt_of_lt_of_le hseq hle) hstep hlt

namespace One

def minute : Nat := 60 * 10 ^ 9

/-- Where the target's first probe stands on the grid. -/
def phase : Int := 10654 * 10 ^ 6

/-- The target is scheduled, and dispatched ten seconds on. -/
def paces (s : State) : Bool :=
  decide (0 < s.schedules ∧ OnGrid hash 7 0 minute phase s) &&
    (steps (guarded (step hash) (paced 7 0 minute)) s [.drainDue (10 * 10 ^ 9), .turn]).any fun t =>
      decide (t.schedules < 2 ^ 64)

end One

/-- Two and a half minutes late, the third minute is next. -/
theorem next_tick_on_grid_stalled :
    IsLeast (gridAfter 0 One.minute (150 * 10 ^ 9)) (180 * 10 ^ 9) ∧
      [Event.turn].count .turn ≤ backlog 0 [] + 1 ∧
      ∃ s t : State, OnGrid One.hash 7 0 One.minute One.phase s ∧
        OnGrid One.hash 7 0 One.minute One.phase t := by
  obtain ⟨htick, hdrain, hphase⟩ := next_tick_on_grid
  obtain ⟨s, hrun, hs⟩ := exists_run_of_steps
    (show (steps (step One.hash) .init [.refresh [One.probe "a"], .applyDiff 0]).any One.paces = true by
      decide +kernel)
  unfold One.paces at hs
  rw [Bool.and_eq_true, decide_eq_true_iff] at hs
  obtain ⟨t, ht, hcount⟩ := exists_run_of_steps hs.2
  refine ⟨?_, ?_, s, t, hs.1.2, ?_⟩
  · exact (htick 0 One.minute (150 * 10 ^ 9) (by decide) (by unfold IsInstant; decide)
      (by unfold IsInstant; decide) (by unfold Countable; decide)).1
  · exact hdrain One.hash { State.init with drain := some ⟨0, []⟩ } _ ⟨0, []⟩ [.turn] rfl rfl
      (fun _ _ => ⟨rfl, trivial⟩)
  · exact hphase One.hash s t 7 0 One.minute One.phase hrun hs.1.1 hs.1.2
      (ht.unguard fun _ _ h => h) (of_decide_eq_true hcount)

/-- Past the last instant there is no next tick. -/
theorem last_tick_overflows : ¬ ∀ (sched : Int) (base : Nat) (now : Int), 0 < base →
    IsInstant sched → IsInstant now → Countable sched base now →
      nextTickChecked sched base now = some (nextTick sched base now) := by
  intro h
  have hlast := h (instantEnd - 1) 1 0 (by decide) (by unfold IsInstant; decide)
    (by unfold IsInstant; decide) (by unfold Countable; decide)
  exact absurd hlast (by decide)

end Uptimepage.Scheduler
