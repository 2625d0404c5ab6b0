import Uptimepage.Async.Tasks
import Uptimepage.Domain.CheckResult
import Uptimepage.Targets.Validate

/-!
# The circuit breaker

`worker/circuit_breaker.rs` and the two ways of `worker/pool.rs` to probe through it: `dispatch`
asks `allow`, may be turned away by the host's throttle, and records what the probe found;
`run_once` asks only where it sees the breaker open, and records as well.  One step is one atomic
access.
-/

namespace Uptimepage.CircuitBreaker

open Async

inductive BreakerState
  | closed
  | opened
  | halfOpen
deriving DecidableEq

structure Config where
  failureThreshold : Nat
  successThreshold : Nat
  openDurationSecs : Nat
  halfOpenMaxCalls : Nat
  /-- A `u32`. -/
  fits : halfOpenMaxCalls < 2 ^ 32
deriving DecidableEq

/-- `now`, in seconds, is the clock; `wrapped`, not in the source, says that the count of the slots
was taken below zero. -/
structure Breaker where
  state : BreakerState
  failureCount : Nat
  successCount : Nat
  halfOpenInFlight : Nat
  openedAt : Int
  now : Int
  wrapped : Bool
deriving DecidableEq

def Breaker.new (now : Int) : Breaker := ⟨.closed, 0, 0, 0, 0, now, false⟩

/-- `fetch_add(1)` on a `u32`, and `fetch_sub(1)`. -/
def fetchAdd (n : Nat) : Nat := (n + 1) % 2 ^ 32

def fetchSub (n : Nat) : Nat := (n + (2 ^ 32 - 1)) % 2 ^ 32

inductive Caller
  | dispatch
  | runOnce
deriving DecidableEq

/-- The statements of `trip_open` and `close`. -/
inductive Reset
  | load
  | state
  | openedAt
  | failures
  | successes
  | inFlight
deriving DecidableEq

/-- Where a probe is.  `slot` says that `try_admit_half_open` let it through and that it has not
recorded since. -/
inductive Phase
  | peeking
  | allowing (caller : Caller)
  | cooling (caller : Caller)
  | turning (caller : Caller)
  | clearingSuccesses (caller : Caller)
  | clearingInFlight (caller : Caller)
  | loading (caller : Caller)
  | admitting (caller : Caller) (cur : Nat)
  | throttling (slot : Bool)
  | probing (slot : Bool)
  | recording (slot : Bool) (isFailure : Bool)
  | failing
  | forgiving
  | releasing (slot : Bool) (isFailure : Bool)
  | succeeding
  | resetting (target : BreakerState) (stmt : Reset)
  | finished (slot : Bool)
deriving DecidableEq

inductive Request
  | dispatch
  | runOnce (force : Bool)
deriving DecidableEq

def Request.first : Request → Phase
  | dispatch => .allowing .dispatch
  | runOnce true => .probing false
  | runOnce false => .peeking

inductive Choice
  | ok
  /-- The host's throttle has no permit. -/
  | throttled
  | verdict (status : CheckStatus)
  /-- The future is dropped before the probe is through. -/
  | dropped
deriving DecidableEq

def isFailure : CheckStatus → Bool
  | .down | .error => true
  | .up | .degraded => false

/-- Once `allow` said yes. -/
def Caller.allowed : Caller → Bool → Phase
  | dispatch, slot => .throttling slot
  | runOnce, slot => .probing slot

/-- A statement of `trip_open` or `close`; only the first of the two sets `opened_at`. -/
def Breaker.reset (b : Breaker) (target : BreakerState) : Reset → Breaker × Phase
  | .load => (b, if b.state = target then .finished false else .resetting target .state)
  | .state =>
    ({ b with state := target },
      .resetting target (if target = .opened then .openedAt else .failures))
  | .openedAt => ({ b with openedAt := b.now }, .resetting target .failures)
  | .failures => ({ b with failureCount := 0 }, .resetting target .successes)
  | .successes => ({ b with successCount := 0 }, .resetting target .inFlight)
  | .inFlight => ({ b with halfOpenInFlight := 0 }, .finished false)

section

variable (cfg : Config)

def Breaker.cooldownElapsed (b : Breaker) : Bool :=
  decide (b.now - b.openedAt ≥ Targets.asI64 cfg.openDurationSecs)

def next (b : Breaker) : Phase → Choice → Option (Breaker × Phase)
  | .peeking, .ok =>
    some (b, if b.state = .opened then .allowing .runOnce else .probing false)
  | .allowing caller, .ok =>
    match b.state with
    | .closed => some (b, caller.allowed false)
    | .opened => some (b, .cooling caller)
    | .halfOpen => some (b, .loading caller)
  | .cooling caller, .ok =>
    some (b, if b.cooldownElapsed cfg then .turning caller else .finished false)
  | .turning caller, .ok =>
    if b.state = .opened then some ({ b with state := .halfOpen }, .clearingSuccesses caller)
    else some (b, .loading caller)
  | .clearingSuccesses caller, .ok => some ({ b with successCount := 0 }, .clearingInFlight caller)
  | .clearingInFlight caller, .ok => some ({ b with halfOpenInFlight := 0 }, .loading caller)
  | .loading caller, .ok =>
    some (b, if cfg.halfOpenMaxCalls ≤ b.halfOpenInFlight then .finished false
      else .admitting caller b.halfOpenInFlight)
  | .admitting caller cur, .ok =>
    if b.halfOpenInFlight = cur then
      some ({ b with halfOpenInFlight := cur + 1 }, caller.allowed true)
    else some (b, .loading caller)
  | .throttling slot, .ok => some (b, .probing slot)
  | .throttling slot, .throttled => some (b, .finished slot)
  | .probing slot, .verdict status => some (b, .recording slot (isFailure status))
  | .probing slot, .dropped => some (b, .finished slot)
  | .recording slot isFailure, .ok =>
    match b.state with
    | .closed => some (b, if isFailure then .failing else .forgiving)
    | .halfOpen => some (b, .releasing slot isFailure)
    | .opened => some (b, .finished false)
  | .failing, .ok =>
    let fails := fetchAdd b.failureCount
    some ({ b with failureCount := fails },
      if cfg.failureThreshold ≤ fails then .resetting .opened .load else .finished false)
  | .forgiving, .ok => some ({ b with failureCount := 0 }, .finished false)
  | .releasing _ isFailure, .ok =>
    some ({ b with
        halfOpenInFlight := fetchSub b.halfOpenInFlight
        wrapped := b.wrapped || b.halfOpenInFlight == 0 },
      if isFailure then .resetting .opened .load else .succeeding)
  | .succeeding, .ok =>
    let succ := fetchAdd b.successCount
    some ({ b with successCount := succ },
      if cfg.successThreshold ≤ succ then .resetting .closed .load else .finished false)
  | .resetting target stmt, .ok => some (b.reset target stmt)
  | _, _ => none

def program : Program Breaker Phase Request Choice Nat where
  first := Request.first
  next := next cfg
  outer := fun b passed => { b with now := b.now + passed }

end

abbrev State := Pooled Breaker Phase

abbrev Event := Act Request Choice Nat

def State.init (now : Int) : State := ⟨.new now, []⟩

/-! ## The account -/

/-- Let through by `try_admit_half_open`, and not yet recorded. -/
def Phase.slot : Phase → Bool
  | throttling slot | probing slot | recording slot _ | releasing slot _ | finished slot => slot
  | _ => false

/-- The count is that of the slots, within its bound, and was never taken below zero. -/
structure Accounted (cfg : Config) (s : State) : Prop where
  counted : s.store.halfOpenInFlight = s.tasks.countP Phase.slot
  bounded : s.store.halfOpenInFlight ≤ cfg.halfOpenMaxCalls
  unwrapped : s.store.wrapped = false

/-- A slot is given back by a probe that took one, a probe with a slot records in the half-open
state, and the count is cleared when no probe has a slot. -/
def Phase.settles (b : Breaker) (tasks : List Phase) : Phase → Bool
  | recording slot _ => !slot || b.state == .halfOpen
  | releasing slot _ => slot
  | clearingInFlight _ | resetting _ .inFlight => tasks.all fun p => !p.slot
  | _ => true

def settles (s : State) : Event → Bool
  | .go i _ => (s.tasks[i]?).all (Phase.settles s.store s.tasks)
  | _ => true

/-- A compare-and-swap is tried on a count below the bound. -/
def Admits (cfg : Config) (s : State) : Prop :=
  ∀ caller cur, .admitting caller cur ∈ s.tasks → cur < cfg.halfOpenMaxCalls

/-- What a statement does to the count and to the slot of its probe. -/
inductive Moved (cfg : Config) (b : Breaker) : Phase → Breaker → Phase → Prop
  /-- Neither is touched. -/
  | still {p p' : Phase} {b' : Breaker} (count : b'.halfOpenInFlight = b.halfOpenInFlight)
      (flag : b'.wrapped = b.wrapped) (slot : p'.slot = p.slot)
      (settled : ∀ tasks, p.settles b tasks = true) : Moved cfg b p b' p'
  | taken (caller : Caller) :
      Moved cfg b (.admitting caller b.halfOpenInFlight)
        { b with halfOpenInFlight := b.halfOpenInFlight + 1 } (caller.allowed true)
  | recorded {slot isFailure : Bool} {p' : Phase} (state : b.state ≠ .halfOpen)
      (free : p'.slot = false) : Moved cfg b (.recording slot isFailure) b p'
  | released {slot isFailure : Bool} {p' : Phase} (free : p'.slot = false) :
      Moved cfg b (.releasing slot isFailure)
        { b with
          halfOpenInFlight := fetchSub b.halfOpenInFlight
          wrapped := b.wrapped || b.halfOpenInFlight == 0 } p'
  | turned (caller : Caller) :
      Moved cfg b (.clearingInFlight caller) { b with halfOpenInFlight := 0 } (.loading caller)
  | reset (target : BreakerState) :
      Moved cfg b (.resetting target .inFlight) { b with halfOpenInFlight := 0 } (.finished false)

section

variable {cfg : Config} {s t : State} {b b' : Breaker} {p p' : Phase} {choice : Choice} {i : Nat}

theorem slot_first (request : Request) : request.first.slot = false := by
  cases request with
  | dispatch => rfl
  | runOnce force => cases force <;> rfl

theorem slot_allowed (caller : Caller) (slot : Bool) : (caller.allowed slot).slot = slot := by
  cases caller <;> rfl

theorem fetchSub_of_pos {n : Nat} (hpos : 0 < n) (hn : n < 2 ^ 32) : fetchSub n = n - 1 := by
  unfold fetchSub
  have hsub : n + (2 ^ 32 - 1) = n - 1 + 2 ^ 32 := by omega
  rw [hsub, Nat.add_mod_right, Nat.mod_eq_of_lt (by omega)]

/-- Only the throttle and the probe itself have another answer than `ok`. -/
theorem choice_of_next (h : next cfg b p choice = some (b', p')) :
    choice = .ok ∨ b' = b ∧
      ((∃ slot, p = .throttling slot ∧ choice = .throttled ∧ p' = .finished slot) ∨
        (∃ slot status, p = .probing slot ∧ choice = .verdict status ∧
          p' = .recording slot (isFailure status)) ∨
        ∃ slot, p = .probing slot ∧ choice = .dropped ∧ p' = .finished slot) := by
  cases choice with
  | ok => exact .inl rfl
  | throttled =>
    cases p with
    | throttling slot =>
      cases h
      exact .inr ⟨rfl, .inl ⟨slot, rfl, rfl, rfl⟩⟩
    | _ => cases h
  | verdict status =>
    cases p with
    | probing slot =>
      cases h
      exact .inr ⟨rfl, .inr (.inl ⟨slot, status, rfl, rfl, rfl⟩)⟩
    | _ => cases h
  | dropped =>
    cases p with
    | probing slot =>
      cases h
      exact .inr ⟨rfl, .inr (.inr ⟨slot, rfl, rfl, rfl⟩)⟩
    | _ => cases h

theorem moved (h : next cfg b p choice = some (b', p')) : Moved cfg b p b' p' := by
  rcases choice_of_next h with rfl | ⟨rfl, ⟨_, rfl, -, rfl⟩ | ⟨_, _, rfl, -, rfl⟩ | ⟨_, rfl, -, rfl⟩⟩
  · cases p with
    | probing slot => cases h
    | finished slot => cases h
    | allowing caller =>
      unfold next at h
      dsimp only at h
      split at h <;> obtain ⟨rfl, rfl⟩ := Prod.mk.inj (Option.some.inj h)
      · exact .still rfl rfl (slot_allowed caller false) fun _ => rfl
      · exact .still rfl rfl rfl fun _ => rfl
      · exact .still rfl rfl rfl fun _ => rfl
    | turning caller =>
      unfold next at h
      dsimp only at h
      split at h <;> obtain ⟨rfl, rfl⟩ := Prod.mk.inj (Option.some.inj h) <;>
        exact .still rfl rfl rfl fun _ => rfl
    | admitting caller cur =>
      unfold next at h
      dsimp only at h
      split at h
      · next hcur =>
        subst hcur
        obtain ⟨rfl, rfl⟩ := Prod.mk.inj (Option.some.inj h)
        exact .taken caller
      · obtain ⟨rfl, rfl⟩ := Prod.mk.inj (Option.some.inj h)
        exact .still rfl rfl rfl fun _ => rfl
    | recording slot isFailure =>
      unfold next at h
      dsimp only at h
      split at h <;> obtain ⟨rfl, rfl⟩ := Prod.mk.inj (Option.some.inj h)
      · next hstate => exact .recorded (by rw [hstate]; nofun) (by split <;> rfl)
      · next hstate =>
        refine .still rfl rfl rfl fun _ => ?_
        show (!slot || b.state == .halfOpen) = true
        rw [hstate]
        exact Bool.or_true _
      · next hstate => exact .recorded (by rw [hstate]; nofun) rfl
    | releasing slot isFailure =>
      obtain ⟨rfl, rfl⟩ := Prod.mk.inj (Option.some.inj h)
      exact .released (by split <;> rfl)
    | clearingInFlight caller =>
      obtain ⟨rfl, rfl⟩ := Prod.mk.inj (Option.some.inj h)
      exact .turned caller
    | resetting target stmt =>
      have hreset : b.reset target stmt = (b', p') := Option.some.inj h
      cases stmt with
      | inFlight =>
        obtain ⟨rfl, rfl⟩ := Prod.mk.inj hreset
        exact .reset target
      | load =>
        obtain ⟨rfl, rfl⟩ := Prod.mk.inj hreset
        exact .still rfl rfl (by split <;> rfl) fun _ => rfl
      | _ =>
        obtain ⟨rfl, rfl⟩ := Prod.mk.inj hreset
        exact .still rfl rfl rfl fun _ => rfl
    | throttling slot =>
      obtain ⟨rfl, rfl⟩ := Prod.mk.inj (Option.some.inj h)
      exact .still rfl rfl rfl fun _ => rfl
    | clearingSuccesses caller =>
      obtain ⟨rfl, rfl⟩ := Prod.mk.inj (Option.some.inj h)
      exact .still rfl rfl rfl fun _ => rfl
    | forgiving =>
      obtain ⟨rfl, rfl⟩ := Prod.mk.inj (Option.some.inj h)
      exact .still rfl rfl rfl fun _ => rfl
    | _ =>
      obtain ⟨rfl, rfl⟩ := Prod.mk.inj (Option.some.inj h)
      exact .still rfl rfl (by split <;> rfl) fun _ => rfl
  all_goals exact .still rfl rfl rfl fun _ => rfl

theorem allowed_ne (caller caller' : Caller) (slot : Bool) (cur : Nat) :
    caller.allowed slot ≠ .admitting caller' cur := by
  cases caller <;> exact nofun

theorem reset_ne (target : BreakerState) (stmt : Reset) (caller : Caller) (cur : Nat) :
    b.reset target stmt ≠ (b', .admitting caller cur) := by
  intro h
  cases stmt <;> have h := congrArg Prod.snd h <;> unfold Breaker.reset at h <;> grind

theorem admitting_of_next {caller : Caller} {cur : Nat}
    (h : next cfg b p choice = some (b', .admitting caller cur)) : cur < cfg.halfOpenMaxCalls := by
  unfold next at h
  split at h <;> grind [allowed_ne, reset_ne]

theorem Admits.step {e : Event} (h : Admits cfg s) (hstep : (program cfg).step s e = some t) :
    Admits cfg t := by
  intro caller cur hmem
  cases Program.stepped hstep with
  | outer passed => exact h caller cur hmem
  | begin request =>
    rcases List.mem_append.mp hmem with hmem | hmem
    · exact h caller cur hmem
    · rw [List.mem_singleton] at hmem
      cases request with
      | dispatch => cases hmem
      | runOnce force => cases force <;> cases hmem
  | go hp hnext =>
    rcases List.mem_or_eq_of_mem_set hmem with hmem | rfl
    · exact h caller cur hmem
    · exact admitting_of_next hnext

theorem slots_eq_zero (tasks : List Phase) :
    (tasks.all fun p => !p.slot) = true ↔ tasks.countP Phase.slot = 0 := by
  rw [List.all_eq_true, List.countP_eq_zero]
  simp only [Bool.not_eq_true', Bool.not_eq_true]

theorem accounted_mk {tasks : List Phase} : Accounted cfg ⟨b, tasks⟩ ↔
    b.halfOpenInFlight = tasks.countP Phase.slot ∧ b.halfOpenInFlight ≤ cfg.halfOpenMaxCalls ∧
      b.wrapped = false :=
  ⟨fun h => ⟨h.counted, h.bounded, h.unwrapped⟩, fun ⟨h, h', h''⟩ => ⟨h, h', h''⟩⟩

theorem accounted_moved {tasks : List Phase} (hp : tasks[i]? = some p)
    (h : Accounted cfg ⟨b, tasks⟩) (hmoved : Moved cfg b p b' p')
    (hlt : ∀ caller cur, p = .admitting caller cur → cur < cfg.halfOpenMaxCalls) :
    Accounted cfg ⟨b', tasks.set i p'⟩ ↔ p.settles b tasks = true := by
  rw [accounted_mk] at h ⊢
  obtain ⟨hcounted, hbounded, hunwrapped⟩ := h
  have hfits := cfg.fits
  have hcount := countP_set_add Phase.slot hp p'
  cases hmoved with
  | still hsame hflag hslot hsettled =>
    rw [hslot] at hcount
    refine ⟨fun _ => hsettled _, fun _ => ⟨?_, hsame.trans_le hbounded, hflag.trans hunwrapped⟩⟩
    omega
  | taken caller =>
    have hbelow := hlt caller _ rfl
    rw [slot_allowed, if_pos rfl] at hcount
    have hmore : (tasks.set i (caller.allowed true)).countP Phase.slot =
        tasks.countP Phase.slot + 1 := hcount
    refine ⟨fun _ => rfl, fun _ => ⟨?_, hbelow, hunwrapped⟩⟩
    show b.halfOpenInFlight + 1 = _
    omega
  | @recorded slot isFailure _ hstate hfree =>
    have hne : (b.state == .halfOpen) = false := beq_eq_false_iff_ne.mpr hstate
    show _ ↔ (!slot || b.state == .halfOpen) = true
    rw [hfree, if_neg Bool.false_ne_true] at hcount
    rw [hne, Bool.or_false, Bool.not_eq_true']
    cases slot with
    | false =>
      have hsame : (tasks.set i p').countP Phase.slot = tasks.countP Phase.slot := hcount
      exact ⟨fun _ => rfl, fun _ => ⟨hsame ▸ hcounted, hbounded, hunwrapped⟩⟩
    | true =>
      have hless : (tasks.set i p').countP Phase.slot + 1 = tasks.countP Phase.slot := hcount
      refine ⟨fun ⟨hcounted', _⟩ => ?_, fun h => nomatch h⟩
      omega
  | @released slot isFailure _ hfree =>
    show _ ↔ slot = true
    rw [hfree, if_neg Bool.false_ne_true] at hcount
    cases slot with
    | false =>
      have hsame : (tasks.set i p').countP Phase.slot = tasks.countP Phase.slot := hcount
      refine ⟨fun ⟨hcounted', _, hunwrapped'⟩ => ?_, fun h => nomatch h⟩
      have hpos : 0 < b.halfOpenInFlight := by
        refine Nat.pos_of_ne_zero fun hzero => ?_
        simp [hzero] at hunwrapped'
      have hsub : fetchSub b.halfOpenInFlight = b.halfOpenInFlight - 1 :=
        fetchSub_of_pos hpos (by omega)
      change fetchSub b.halfOpenInFlight = _ at hcounted'
      omega
    | true =>
      have hless : (tasks.set i p').countP Phase.slot + 1 = tasks.countP Phase.slot := hcount
      have hsub : fetchSub b.halfOpenInFlight = b.halfOpenInFlight - 1 :=
        fetchSub_of_pos (by omega) (by omega)
      refine ⟨fun _ => rfl, fun _ => ⟨?_, ?_, ?_⟩⟩
      · show fetchSub b.halfOpenInFlight = _
        omega
      · show fetchSub b.halfOpenInFlight ≤ _
        omega
      · show (b.wrapped || b.halfOpenInFlight == 0) = false
        rw [hunwrapped, Bool.false_or, beq_eq_false_iff_ne]
        omega
  | turned caller =>
    have hsame : (tasks.set i (.loading caller)).countP Phase.slot = tasks.countP Phase.slot := hcount
    show _ ↔ (tasks.all fun p => !p.slot) = true
    rw [slots_eq_zero, hsame]
    exact ⟨fun h => h.1.symm, fun h => ⟨h.symm, Nat.zero_le _, hunwrapped⟩⟩
  | reset target =>
    have hsame : (tasks.set i (.finished false)).countP Phase.slot = tasks.countP Phase.slot := hcount
    show _ ↔ (tasks.all fun p => !p.slot) = true
    rw [slots_eq_zero, hsame]
    exact ⟨fun h => h.1.symm, fun h => ⟨h.symm, Nat.zero_le _, hunwrapped⟩⟩

theorem accounted_step {e : Event} (hadmits : Admits cfg s) (h : Accounted cfg s)
    (hstep : (program cfg).step s e = some t) : Accounted cfg t ↔ settles s e = true := by
  cases Program.stepped hstep with
  | outer passed => exact ⟨fun _ => rfl, fun _ => ⟨h.counted, h.bounded, h.unwrapped⟩⟩
  | begin request =>
    refine ⟨fun _ => rfl, fun _ => ⟨?_, h.bounded, h.unwrapped⟩⟩
    show _ = (s.tasks ++ [request.first]).countP Phase.slot
    rw [List.countP_append, List.countP_singleton, slot_first, ← h.counted]
    rfl
  | @go i choice p p' b' hp hnext =>
    show _ ↔ (s.tasks[i]?).all (Phase.settles s.store s.tasks) = true
    rw [hp, Option.all_some]
    refine accounted_moved hp h (moved hnext) ?_
    rintro caller cur rfl
    exact hadmits caller cur (List.mem_of_getElem? hp)

end

/-- **The count is that of the half-open probes exactly where every step settles**: in a run of
dispatches and `run_once` probes, in any interleaving, `half_open_in_flight` is in every state the
number of probes that were let through half-open and have not recorded, at most
`half_open_max_calls` and never taken below zero, if and only if a slot is given back only by a
probe that took one, a probe with a slot records in the half-open state, and the count is cleared
only when no probe has a slot. -/
theorem half_open_accounting_iff (cfg : Config) (now : Int) (es : List Event) :
    Throughout (program cfg).step (Accounted cfg) (State.init now) es ↔
      Allowed (program cfg).step (fun s e => settles s e = true) (State.init now) es :=
  throughout_iff_allowed (I := Admits cfg) (fun _ _ _ h hstep => h.step hstep)
    (fun _ _ _ hadmits h hstep => accounted_step hadmits h hstep) es
    (fun _ _ hmem => absurd hmem List.not_mem_nil) ⟨rfl, Nat.zero_le _, rfl⟩

namespace One

def cfg : Config := ⟨1, 2, 60, 3, by decide⟩

/-- A probe that is let through while the breaker is closed. -/
def through (i : Nat) : List Event := [.begin .dispatch, .go i .ok, .go i .ok]

/-- Probe 0 is slow.  Probe 1 finds the host down and trips the breaker; a minute later probe 2 is
let through half-open and finds it up.  Then probe 0 records. -/
def events : List Event :=
  through 0 ++ through 1 ++ (.go 1 (.verdict .down) :: List.replicate 8 (.go 1 .ok) : List Event) ++
  (.outer 60 :: .begin .dispatch :: List.replicate 8 (.go 2 .ok) : List Event) ++
  (.go 2 (.verdict .up) :: List.replicate 3 (.go 2 .ok) : List Event) ++
  ([.go 0 (.verdict .up), .go 0 .ok, .go 0 .ok] : List Event)

end One

/-- A probe that was let through before the breaker tripped takes the count below zero. -/
theorem half_open_count_wraps : ¬ ∀ (cfg : Config) (now : Int) (es : List Event),
    Throughout (program cfg).step (Accounted cfg) (State.init now) es := by
  intro h
  obtain ⟨t, ht, hwrapped⟩ := (Option.any_eq_true _ _).mp
    (show (steps (program One.cfg).step (State.init 0) One.events).any (fun t => t.store.wrapped) = true
      by decide +kernel)
  have hkept := ((h One.cfg 0 One.events).of_steps ht).unwrapped
  rw [hwrapped] at hkept
  cases hkept

end Uptimepage.CircuitBreaker
