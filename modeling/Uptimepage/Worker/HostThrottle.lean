import Uptimepage.Async.SharedCell
import Uptimepage.Domain.Incident

/-!
# The host throttle

`worker/host_throttle.rs`: a semaphore for each (organisation, host, port), looked up, made on
first use and cloned out of the map before a permit is taken from it, and `sweep_idle` that takes
out the semaphores nobody has.  A permit keeps its semaphore alive until it is dropped.
-/

namespace Uptimepage.HostThrottle

open Async

/-- `(OrgId, Arc<str>, u16)`. -/
abbrev HostKey := OrgId × String × Nat

/-- `Semaphore::MAX_PERMITS`, that is `usize::MAX >> 3`. -/
def maxPermits : Nat := (2 ^ 64 - 1) >>> 3

/-- `n.clamp(1, Semaphore::MAX_PERMITS)`. -/
def clampPermits (n : Nat) : Nat := min (max n 1) maxPermits

/-- Where an acquire is.  `finished` is that of an acquire that was throttled or whose permit is
given back; the reference to the semaphore is still to be dropped. -/
inductive Phase
  | trying
  | permitted
  | finished (throttled : Bool)
deriving DecidableEq

/-- `HostThrottle::new(n, _)`, seen from one semaphore with so many permits available. -/
def semaphore (perHostMax : Nat) : CellProgram Unit Nat Unit Phase Unit Empty where
  fresh := fun _ => clampPermits perHostMax
  idle := fun _ available => available == clampPermits perHostMax
  asks := true
  first := fun _ => .trying
  next := fun _ available phase _ =>
    match phase with
    -- `try_acquire_owned`
    | .trying => some (if 0 < available then (available - 1, .permitted) else (available, .finished true))
    -- the permit is dropped
    | .permitted => some (available + 1, .finished false)
    | .finished _ => none
  done := fun phase =>
    match phase with
    | .finished _ => true
    | _ => false
  outer := fun env _ => env

abbrev State := SharedMap.State HostKey Unit Nat Unit Phase

abbrev Event := SharedMap.Event HostKey Unit Unit Empty

/-- The throttle with its map of semaphores `caps`. -/
def caps (perHostMax : Nat) : Program (SharedMap.Store HostKey Unit Nat)
    (SharedMap.Task HostKey Unit Phase) (SharedMap.Visit HostKey Unit) (Option Unit) Empty :=
  SharedMap.program (semaphore perHostMax)

def permits (key : HostKey) : SharedMap.Task HostKey Unit Phase → Bool
  | .holding key' _ .permitted => key' = key
  | _ => false

/-- The permits out for the key, of whichever semaphore they are. -/
def outstanding (key : HostKey) (s : State) : Nat := s.tasks.countP (permits key)

/-! ## One semaphore -/

/-- What is available and what is out make up the limit. -/
def Balanced (n : Nat) (v : Option Nat) (ps : Multiset Phase) : Prop :=
  match v with
  | none => ps = 0
  | some available => available + ps.countP (· = .permitted) = clampPermits n

theorem balanced_shown {n : Nat} {act : Option (Phase × Unit)} {v v' : Option Nat}
    {ps ps' : Multiset Phase} (h : Balanced n v ps)
    (hshown : SharedMap.Shown (semaphore n) () act v ps v' ps') : Balanced n v' ps' := by
  cases hshown with
  | still => exact h
  | joined request v ps =>
    show v + (Phase.trying ::ₘ ps).countP (· = .permitted) = clampPermits n
    rw [Multiset.countP_cons, if_neg (by decide)]
    exact h
  | made request =>
    show clampPermits n + (Phase.trying ::ₘ 0).countP (· = .permitted) = clampPermits n
    rw [Multiset.countP_cons, if_neg (by decide), Multiset.countP_zero]
    rfl
  | @worked v v' p p' choice ps does =>
    have hsum : v + (p ::ₘ ps).countP (· = .permitted) = clampPermits n := h
    show v' + (p' ::ₘ ps).countP (· = .permitted) = clampPermits n
    rw [Multiset.countP_cons] at hsum ⊢
    cases p with
    | trying =>
      have does := Option.some.inj does
      by_cases havailable : 0 < v
      · rw [if_pos havailable] at does
        obtain ⟨rfl, rfl⟩ := Prod.mk.inj does
        rw [if_neg (by decide)] at hsum
        rw [if_pos rfl]
        omega
      · rw [if_neg havailable] at does
        obtain ⟨rfl, rfl⟩ := Prod.mk.inj does
        rw [if_neg (by decide)] at hsum ⊢
        exact hsum
    | permitted =>
      obtain ⟨rfl, rfl⟩ := Prod.mk.inj (Option.some.inj does)
      rw [if_pos rfl] at hsum
      rw [if_neg (by decide)]
      omega
    | finished throttled => cases does
  | @left p v ps' done =>
    have hsum : v + (p ::ₘ ps').countP (· = .permitted) = clampPermits n := h
    show v + ps'.countP (· = .permitted) = clampPermits n
    rw [Multiset.countP_cons] at hsum
    cases p with
    | finished throttled =>
      rw [if_neg (by cases throttled <;> decide)] at hsum
      exact hsum
    | _ => cases done
  | swept idle => rfl

theorem outstanding_eq (key : HostKey) (s : State) :
    outstanding key s = (SharedMap.users key s.tasks).countP (· = .permitted) := by
  unfold outstanding SharedMap.users
  rw [Multiset.coe_countP, List.countP_filterMap]
  congr 1
  funext task
  cases task with
  | holding key' address phase =>
    by_cases hkey : key' = key
    · cases phase <;> simp [permits, SharedMap.Task.heldAt, hkey]
    · cases phase <;> simp [permits, SharedMap.Task.heldAt, hkey]
  | _ => rfl

theorem balanced_run {n : Nat} {s : State}
    (hrun : Run (caps n).step (fun _ _ => True) (SharedMap.State.init ()) s) (key : HostKey) :
    Balanced n (s.store.value key) (SharedMap.users key s.tasks) :=
  SharedMap.keeps_each (I := fun _ => Balanced n) (fun _ o => nomatch o)
    (fun _ _ _ _ _ _ h hshown => balanced_shown h hshown) (SharedMap.Sound.init ())
    (fun _ => rfl) (show Run (SharedMap.program (semaphore n)).step _ _ s from hrun) key

/-- **The host limit holds under sweeping**: in every interleaving of acquires, releases and
sweeps no more than `per_host_max` permits are out for a key, and a step that takes a semaphore
out of the map takes one that no acquire and no permit has a reference to. -/
theorem host_limit (n : Nat) {s : State}
    (hrun : Run (caps n).step (fun _ _ => True) (SharedMap.State.init ()) s) :
    (∀ key, outstanding key s ≤ clampPermits n) ∧
      ∀ (e : Event) (t : State) (key : HostKey) (address : Nat), (caps n).step s e = some t →
        s.store.entries key = some address → t.store.entries key ≠ some address →
          ∀ key' phase, .holding key' address phase ∉ s.tasks := by
  constructor
  · intro key
    rw [outstanding_eq]
    have hbalanced := balanced_run hrun key
    unfold Balanced at hbalanced
    split at hbalanced
    · rw [hbalanced, Multiset.countP_zero]
      exact Nat.zero_le _
    · omega
  · intro e t key address hstep hentry hgone
    exact ((SharedMap.Sound.init ()).run hrun).unused_of_removed hstep hentry hgone

namespace One

def key : HostKey := (1, "example.com", 443)

/-- One acquire has the only permit and the next is throttled; a sweep comes before the permit is
taken and another after that. -/
def events : List Event :=
  [.begin (.look key ()), .go 0 none, .go 0 none, .begin (.sweep key), .go 1 none,
    .go 0 (some ()), .begin (.look key ()), .go 2 none, .go 2 (some ()), .go 2 none,
    .begin (.sweep key), .go 3 none]

end One

theorem host_limit_one : ∃ s : State,
    Run (caps 1).step (fun _ _ => True) (SharedMap.State.init ()) s ∧ outstanding One.key s = 1 ∧
      (∀ key, outstanding key s ≤ clampPermits 1) ∧
        ∀ (e : Event) (t : State) (key : HostKey) (address : Nat), (caps 1).step s e = some t →
          s.store.entries key = some address → t.store.entries key ≠ some address →
            ∀ key' phase, .holding key' address phase ∉ s.tasks := by
  obtain ⟨s, hrun, hout⟩ := exists_run_of_steps (P := fun s : State => outstanding One.key s == 1)
    (show (steps (caps 1).step (SharedMap.State.init ()) One.events).any
      (fun s => outstanding One.key s == 1) = true by decide)
  exact ⟨s, hrun, by simpa using hout, host_limit 1 hrun⟩

end Uptimepage.HostThrottle
