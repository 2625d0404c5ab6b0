import Uptimepage.Async.SharedCell

/-!
# RDAP lookups, one flight at a time

`worker/rdap_singleflight.rs`: a slot for each domain, whose mutex a lookup holds while it looks
at the cached answer and while it fetches a new one; `sweep_idle` takes out the slots nobody has
that are empty or out of date.  Times are those of a monotone clock.
-/

namespace Uptimepage.RdapSingleflight

open Async

inductive SlotState (Answer : Type)
  | empty
  | ready (value : Answer) (fetchedAt : Nat)
deriving DecidableEq

structure Slot (Answer : Type) where
  locked : Bool
  state : SlotState Answer
deriving DecidableEq

inductive FetchOutcome
  | hit
  | miss
deriving DecidableEq

/-- How a lookup ends: with an answer, with the fetcher's error, or with its future dropped. -/
inductive Ending (Answer : Type)
  | ok (value : Answer) (outcome : FetchOutcome)
  | error
  | dropped
deriving DecidableEq

/-- Where a lookup is.  In `looking`, `fetching`, `fetched` and `unlocking` it has the guard. -/
inductive Phase (Answer : Type)
  /-- `slot.state.lock().await`. -/
  | waiting
  | looking
  /-- `fetcher().await`. -/
  | fetching
  | fetched (value : Answer)
  | unlocking (ending : Ending Answer)
  | through (ending : Ending Answer)
deriving DecidableEq

inductive Choice (Answer : Type)
  | ok
  /-- What the fetcher's future is ready with; `none` is an error. -/
  | answer (result : Option Answer)
  /-- The lookup's future is dropped where it waits. -/
  | dropped
deriving DecidableEq

variable {Answer : Type}

/-- What a lookup may reuse: an answer whose `fetched_at.elapsed()` is less than the time to live. -/
def SlotState.served (ttl now : Nat) : SlotState Answer → Option Answer
  | .empty => none
  | .ready value fetchedAt => if now - fetchedAt < ttl then some value else none

def next (ttl now : Nat) (slot : Slot Answer) :
    Phase Answer → Choice Answer → Option (Slot Answer × Phase Answer)
  | .waiting, .ok => if slot.locked then none else some ({ slot with locked := true }, .looking)
  | .waiting, .dropped => some (slot, .through .dropped)
  | .looking, .ok =>
    match slot.state.served ttl now with
    | some value => some (slot, .unlocking (.ok value .hit))
    | none => some (slot, .fetching)
  | .fetching, .answer (some value) => some (slot, .fetched value)
  | .fetching, .answer none => some (slot, .unlocking .error)
  | .fetching, .dropped => some (slot, .unlocking .dropped)
  | .fetched value, .ok =>
    some ({ slot with state := .ready value now }, .unlocking (.ok value .miss))
  | .unlocking ending, .ok => some ({ slot with locked := false }, .through ending)
  | _, _ => none

/-- What `sweep` asks of a slot: that the lock is free and the state is of no use. -/
def idle (ttl now : Nat) (slot : Slot Answer) : Bool :=
  !slot.locked &&
    match slot.state with
    | .empty => true
    | .ready _ fetchedAt => decide (now - fetchedAt ≥ ttl)

/-- A slot of `RdapSingleflight::new(ttl)`. -/
def slot (ttl : Nat) : CellProgram Nat (Slot Answer) Unit (Phase Answer) (Choice Answer) Nat where
  fresh := fun _ => ⟨false, .empty⟩
  idle := idle ttl
  asks := false
  first := fun _ => .waiting
  next := next ttl
  done := fun phase =>
    match phase with
    | .through _ => true
    | _ => false
  outer := fun now passed => now + passed

abbrev State (Answer : Type) := SharedMap.State String Nat (Slot Answer) Unit (Phase Answer)

abbrev Event (Answer : Type) := SharedMap.Event String Unit (Choice Answer) Nat

def program (Answer : Type) (ttl : Nat) : Program (SharedMap.Store String Nat (Slot Answer))
    (SharedMap.Task String Unit (Phase Answer)) (SharedMap.Visit String Unit)
    (Option (Choice Answer)) Nat :=
  SharedMap.program (slot ttl)

/-! ## Single flight -/

def Phase.isFetching : Phase Answer → Bool
  | .fetching => true
  | _ => false

def fetches (domain : String) (s : State Answer) : Nat :=
  (SharedMap.users domain s.tasks).countP (·.isFetching)

def stateOf (domain : String) (s : State Answer) : Option (SlotState Answer) :=
  (s.store.value domain).map (·.state)

/-- What a lookup of the domain that has the lock may reuse. -/
def served (ttl : Nat) (domain : String) (s : State Answer) : Option Answer :=
  (stateOf domain s).bind (·.served ttl s.store.env)

/-- A lookup of the domain that looks at the cached answer goes on to `phase`. -/
def LooksUp (ttl : Nat) (domain : String) (s : State Answer) (phase : Phase Answer) : Prop :=
  ∀ e t choice, (program Answer ttl).step s e = some t →
    SharedMap.workAt domain s e = some (.looking, choice) → phase ∈ SharedMap.users domain t.tasks

def Stores (domain : String) (s : State Answer) (e : Event Answer) : Prop :=
  ∃ value, SharedMap.workAt domain s e = some (.fetched value, .ok)

/-- What the singleflight promises of a state. -/
structure SingleFlight (ttl : Nat) (s : State Answer) : Prop where
  one : ∀ domain, fetches domain s ≤ 1
  /-- As long as an answer is younger than its time to live it stays, nobody fetches another, and
  every lookup is served it. -/
  reuses : ∀ domain value fetchedAt, stateOf domain s = some (.ready value fetchedAt) →
    ∀ u, Run (program Answer ttl).step (fun _ _ => True) s u → u.store.env - fetchedAt < ttl →
      stateOf domain u = some (.ready value fetchedAt) ∧ fetches domain u = 0 ∧
        LooksUp ttl domain u (.unlocking (.ok value .hit))
  /-- An error leaves the slot as it was, and until an answer is stored every lookup fetches. -/
  fails : ∀ domain e t, (program Answer ttl).step s e = some t →
    SharedMap.workAt domain s e = some (.fetching, .answer none) →
      stateOf domain t = stateOf domain s ∧
        ∀ u, Run (program Answer ttl).step (fun v e => ¬ Stores domain v e) t u →
          LooksUp ttl domain u .fetching
  /-- What is stored is what a fetch came back with. -/
  stored : ∀ domain e t value fetchedAt, (program Answer ttl).step s e = some t →
    stateOf domain t = some (.ready value fetchedAt) →
      stateOf domain s = some (.ready value fetchedAt) ∨ Stores domain s e
  answered : ∀ domain e t value, (program Answer ttl).step s e = some t →
    .fetched value ∈ SharedMap.users domain t.tasks →
      .fetched value ∈ SharedMap.users domain s.tasks ∨
        SharedMap.workAt domain s e = some (.fetching, .answer (some value))

/-! ## One slot -/

/-- The lookup has the guard. -/
def Phase.guards : Phase Answer → Bool
  | .looking | .fetching | .fetched _ | .unlocking _ => true
  | _ => false

/-- The lookup found nothing to reuse, and has not stored an answer. -/
def Phase.flying : Phase Answer → Bool
  | .fetching | .fetched _ => true
  | _ => false

/-- The lock has one holder, which fetches only where there is nothing to reuse. -/
def Exclusive (ttl now : Nat) (v : Option (Slot Answer)) (ps : Multiset (Phase Answer)) : Prop :=
  match v with
  | none => ps = 0
  | some slot => ps.countP (·.guards) = (if slot.locked then 1 else 0) ∧
      (slot.state.served ttl now ≠ none → ps.countP (·.flying) = 0)

section

variable {ttl now : Nat} {slot' : Slot Answer} {p p' : Phase Answer} {choice : Choice Answer}
  {ps ps' : Multiset (Phase Answer)}

theorem countP_le_of_imp {f g : Phase Answer → Bool} (h : ∀ p, f p = true → g p = true)
    (ps : Multiset (Phase Answer)) : ps.countP (f · = true) ≤ ps.countP (g · = true) := by
  rw [Multiset.countP_eq_card_filter, Multiset.countP_eq_card_filter]
  exact Multiset.card_le_card (Multiset.monotone_filter_right ps h)

theorem flying_le_guards (ps : Multiset (Phase Answer)) :
    ps.countP (·.flying) ≤ ps.countP (·.guards) :=
  countP_le_of_imp (fun p h => by cases p <;> first | rfl | cases h) ps

theorem fetching_le_flying (ps : Multiset (Phase Answer)) :
    ps.countP (·.isFetching) ≤ ps.countP (·.flying) :=
  countP_le_of_imp (fun p h => by cases p <;> first | rfl | cases h) ps

theorem served_later (state : SlotState Answer) {now' : Nat} (hle : now ≤ now')
    (h : state.served ttl now = none) : state.served ttl now' = none := by
  cases state with
  | empty => rfl
  | ready value fetchedAt =>
    unfold SlotState.served at h ⊢
    dsimp only at h ⊢
    split at h
    · cases h
    · rw [if_neg (by omega)]

theorem served_of_idle {slot : Slot Answer} (h : idle ttl now slot = true) :
    slot.state.served ttl now = none := by
  have hstate := (Bool.and_eq_true_iff.mp h).2
  cases hs : slot.state with
  | empty => rfl
  | ready value fetchedAt =>
    rw [hs] at hstate
    have hold : now - fetchedAt ≥ ttl := of_decide_eq_true hstate
    exact if_neg (by omega)

/-- What a statement of a lookup does to the slot, to the guard and to the flight. -/
inductive Moved (ttl now : Nat) (slot : Slot Answer) :
    Phase Answer → Choice Answer → Slot Answer → Phase Answer → Prop
  | locked (free : slot.locked = false) :
    Moved ttl now slot .waiting .ok { slot with locked := true } .looking
  | hit {value : Answer} (fresh : slot.state.served ttl now = some value) :
    Moved ttl now slot .looking .ok slot (.unlocking (.ok value .hit))
  | missed (stale : slot.state.served ttl now = none) : Moved ttl now slot .looking .ok slot .fetching
  | answered (value : Answer) :
    Moved ttl now slot .fetching (.answer (some value)) slot (.fetched value)
  | failed {choice : Choice Answer} (ending : Ending Answer)
      (no : ∀ value, choice ≠ .answer (some value)) :
      Moved ttl now slot .fetching choice slot (.unlocking ending)
  | stored (value : Answer) : Moved ttl now slot (.fetched value) .ok
      { slot with state := .ready value now } (.unlocking (.ok value .miss))
  | unlocked (ending : Ending Answer) :
    Moved ttl now slot (.unlocking ending) .ok { slot with locked := false } (.through ending)
  | dropped : Moved ttl now slot .waiting .dropped slot (.through .dropped)

theorem moved {slot : Slot Answer} (h : next ttl now slot p choice = some (slot', p')) :
    Moved ttl now slot p choice slot' p' := by
  unfold next at h
  split at h
  · split at h
    · cases h
    · next hfree =>
      cases h
      exact .locked (by simpa using hfree)
  · cases h
    exact .dropped
  · split at h
    · next hfresh =>
      cases h
      exact .hit hfresh
    · next hstale =>
      cases h
      exact .missed hstale
  · cases h
    exact .answered _
  · cases h
    exact .failed _ nofun
  · cases h
    exact .failed _ nofun
  · cases h
    exact .stored _
  · cases h
    exact .unlocked _
  · cases h

theorem exclusive_moved {slot : Slot Answer} (hmoved : Moved ttl now slot p choice slot' p')
    (h : Exclusive ttl now (some slot) (p ::ₘ ps)) :
    Exclusive ttl now (some slot') (p' ::ₘ ps) := by
  obtain ⟨hlock, hfresh⟩ := h
  have hle := flying_le_guards ps
  show (p' ::ₘ ps).countP (·.guards) = (if slot'.locked then 1 else 0) ∧
    (slot'.state.served ttl now ≠ none → (p' ::ₘ ps).countP (·.flying) = 0)
  rw [Multiset.countP_cons] at hlock hfresh
  rw [Multiset.countP_cons, Multiset.countP_cons]
  cases hmoved with
  | locked free =>
    rw [free] at hlock
    simp only [Phase.guards, Phase.flying, Bool.false_eq_true, if_false, if_true] at hlock hfresh ⊢
    exact ⟨by omega, hfresh⟩
  | hit fresh =>
    simp only [Phase.guards, Phase.flying, Bool.false_eq_true, if_false, if_true] at hlock hfresh ⊢
    exact ⟨hlock, hfresh⟩
  | missed stale =>
    simp only [Phase.guards, if_true] at hlock ⊢
    exact ⟨hlock, fun hserved => absurd stale hserved⟩
  | answered value =>
    simp only [Phase.guards, Phase.flying, if_true] at hlock hfresh ⊢
    exact ⟨hlock, hfresh⟩
  | failed ending no =>
    exact ⟨hlock, fun hserved => (Nat.add_eq_zero_iff.mp (hfresh hserved)).1⟩
  | stored value =>
    -- nobody else has the guard
    have hnone : ps.countP (·.guards) = 0 := by
      have hone : ps.countP (·.guards) + 1 = if slot.locked then 1 else 0 := hlock
      split at hone
      · omega
      · omega
    refine ⟨hlock, fun _ => ?_⟩
    show ps.countP (·.flying) + 0 = 0
    omega
  | unlocked ending =>
    simp only [Phase.guards, Phase.flying, Bool.false_eq_true, if_false, if_true] at hlock hfresh ⊢
    refine ⟨?_, hfresh⟩
    split at hlock
    · omega
    · omega
  | dropped =>
    simp only [Phase.guards, Phase.flying, Bool.false_eq_true, if_false] at hlock hfresh ⊢
    exact ⟨hlock, hfresh⟩

theorem exclusive_shown {act : Option (Phase Answer × Choice Answer)} {v v' : Option (Slot Answer)}
    (h : Exclusive ttl now v ps) (hshown : SharedMap.Shown (slot ttl) now act v ps v' ps') :
    Exclusive ttl now v' ps' := by
  cases hshown with
  | still => exact h
  | joined request v ps =>
    obtain ⟨hlock, hfresh⟩ := h
    show (Phase.waiting ::ₘ ps).countP (·.guards) = _ ∧ (_ → (Phase.waiting ::ₘ ps).countP _ = 0)
    rw [Multiset.countP_cons, Multiset.countP_cons]
    exact ⟨hlock, hfresh⟩
  | made request =>
    show (Phase.waiting ::ₘ 0).countP (·.guards) = _ ∧ (_ → (Phase.waiting ::ₘ 0).countP _ = 0)
    rw [Multiset.countP_cons, Multiset.countP_cons]
    exact ⟨rfl, fun _ => rfl⟩
  | worked ps does => exact exclusive_moved (moved does) h
  | @left p v ps done =>
    cases p with
    | through ending =>
      obtain ⟨hlock, hfresh⟩ := h
      rw [Multiset.countP_cons] at hlock hfresh
      exact ⟨hlock, hfresh⟩
    | _ => cases done
  | swept idle => rfl

end

/-! ## Runs -/

section

variable {ttl : Nat} {domain : String} {s t u : State Answer} {e : Event Answer}
  {choice : Choice Answer} {ok : State Answer → Event Answer → Prop}

structure Kept (ttl : Nat) (s : State Answer) : Prop where
  sound : SharedMap.Sound s
  exclusive : ∀ domain, Exclusive ttl s.store.env (s.store.value domain)
    (SharedMap.users domain s.tasks)

theorem kept_init (ttl now : Nat) : Kept ttl (SharedMap.State.init now : State Answer) :=
  ⟨SharedMap.Sound.init now, fun _ => rfl⟩

theorem Kept.run (h : Kept ttl s) (hrun : Run (program Answer ttl).step ok s t) : Kept ttl t := by
  refine ⟨h.sound.run hrun, fun domain => ?_⟩
  refine SharedMap.keeps_each (I := Exclusive ttl) ?_ ?_ h.sound h.exclusive
    (show Run (SharedMap.program (slot ttl)).step ok s t from hrun) domain
  · intro now passed v ps h
    cases v with
    | none => exact h
    | some slot =>
      obtain ⟨hlock, hfresh⟩ := h
      refine ⟨hlock, fun hserved => hfresh fun hstale => ?_⟩
      exact hserved (served_later slot.state (Nat.le_add_right now passed) hstale)
  · exact fun now act v ps v' ps' h hshown => exclusive_shown h hshown

theorem Kept.step (h : Kept ttl s) (hstep : (program Answer ttl).step s e = some t) : Kept ttl t :=
  h.run (.snoc .refl trivial hstep : Run (program Answer ttl).step (fun _ _ => True) s t)

theorem Kept.shown (h : Kept ttl s) (hstep : (program Answer ttl).step s e = some t)
    (domain : String) : SharedMap.Shown (slot ttl) s.store.env (SharedMap.workAt domain s e)
      (s.store.value domain) (SharedMap.users domain s.tasks) (t.store.value domain)
        (SharedMap.users domain t.tasks) :=
  h.sound.shown hstep domain

theorem clock_mono (hstep : (program Answer ttl).step s e = some t) :
    s.store.env ≤ t.store.env := by
  rcases SharedMap.env_step hstep with henv | ⟨passed, rfl⟩
  · exact le_of_eq henv.symm
  · exact Nat.le_add_right _ _

variable {value : Answer}

theorem Kept.grounded (h : Kept ttl s) (hserved : served ttl domain s = some value) :
    (SharedMap.users domain s.tasks).countP (·.flying) = 0 := by
  have hexclusive := h.exclusive domain
  unfold served stateOf at hserved
  cases hv : s.store.value domain with
  | none =>
    rw [hv] at hserved
    cases hserved
  | some slot =>
    rw [hv] at hserved hexclusive
    have hsome : slot.state.served ttl s.store.env = some value := hserved
    exact hexclusive.2 (by rw [hsome]; nofun)

theorem Kept.one (h : Kept ttl s) (domain : String) : fetches domain s ≤ 1 := by
  have hexclusive := h.exclusive domain
  have hle := le_trans (fetching_le_flying (SharedMap.users domain s.tasks)) (flying_le_guards _)
  unfold fetches
  unfold Exclusive at hexclusive
  split at hexclusive
  · rw [hexclusive, Multiset.countP_zero]
    exact Nat.zero_le _
  · have hone := hexclusive.1
    split at hone
    · omega
    · omega

/-- The state of a slot changes when an answer is stored, and with the slot itself. -/
inductive Changed (ttl : Nat) (domain : String) (s t : State Answer) (e : Event Answer) : Prop
  | same (state : stateOf domain t = stateOf domain s)
  | stored (value : Answer) (work : SharedMap.workAt domain s e = some (.fetched value, .ok))
      (held : .fetched value ∈ SharedMap.users domain s.tasks)
      (state : stateOf domain t = some (.ready value s.store.env))
  | made (old : stateOf domain s = none) (new : stateOf domain t = some .empty)
  | swept (new : stateOf domain t = none) (old : served ttl domain s = none)

theorem Kept.changed (h : Kept ttl s) (hstep : (program Answer ttl).step s e = some t)
    (domain : String) : Changed ttl domain s t e := by
  have hshown := h.shown hstep domain
  generalize hv : s.store.value domain = v at hshown
  generalize hv' : t.store.value domain = v' at hshown
  generalize hps : SharedMap.users domain s.tasks = ps at hshown
  generalize SharedMap.users domain t.tasks = ps' at hshown
  generalize hact : SharedMap.workAt domain s e = act at hshown
  have hsame : v' = v → Changed ttl domain s t e := by
    intro heq
    apply Changed.same
    unfold stateOf
    rw [hv, hv', heq]
  cases hshown with
  | still => exact hsame rfl
  | joined request v ps => exact hsame rfl
  | made request =>
    apply Changed.made
    · unfold stateOf
      rw [hv]
      rfl
    · unfold stateOf
      rw [hv']
      rfl
  | @worked v v' p p' choice ps does =>
    cases moved does with
    | stored value =>
      refine .stored value hact ?_ ?_
      · rw [hps]
        exact Multiset.mem_cons_self _ _
      · unfold stateOf
        rw [hv']
        rfl
    | _ =>
      apply Changed.same
      unfold stateOf
      simp only [hv, hv', Option.map_some]
  | left v ps done => exact hsame rfl
  | @swept v idle =>
    apply Changed.swept
    · unfold stateOf
      rw [hv']
      rfl
    · unfold served stateOf
      rw [hv]
      exact served_of_idle idle

theorem Kept.looksUp (h : Kept ttl s) {phase : Phase Answer}
    (hnext : ∀ slot' p' choice slot, s.store.value domain = some slot →
      Moved ttl s.store.env slot .looking choice slot' p' → p' = phase) :
    LooksUp ttl domain s phase := by
  intro e t choice hstep hwork
  have hshown := h.shown hstep domain
  rw [hwork] at hshown
  generalize hv : s.store.value domain = v at hshown
  generalize SharedMap.users domain t.tasks = ps' at hshown ⊢
  generalize SharedMap.users domain s.tasks = ps at hshown
  generalize t.store.value domain = v' at hshown
  cases hshown with
  | @worked v v' p p' choice ps does =>
    obtain rfl := hnext _ _ _ v hv (moved does)
    exact Multiset.mem_cons_self _ _

theorem looksUp_hit (h : Kept ttl s) (hserved : served ttl domain s = some value) :
    LooksUp ttl domain s (.unlocking (.ok value .hit)) := by
  refine h.looksUp fun slot' p' choice slot hslot hmoved => ?_
  have hfresh : slot.state.served ttl s.store.env = some value := by
    unfold served stateOf at hserved
    rw [hslot] at hserved
    exact hserved
  cases hmoved with
  | hit fresh =>
    rw [hfresh] at fresh
    cases fresh
    rfl
  | missed stale =>
    rw [hfresh] at stale
    cases stale

theorem looksUp_fetching (h : Kept ttl s) (hserved : served ttl domain s = none) :
    LooksUp ttl domain s .fetching := by
  refine h.looksUp fun slot' p' choice slot hslot hmoved => ?_
  have hstale : slot.state.served ttl s.store.env = none := by
    unfold served stateOf at hserved
    rw [hslot] at hserved
    exact hserved
  cases hmoved with
  | hit fresh =>
    rw [hstale] at fresh
    cases fresh
  | missed stale => rfl

variable {fetchedAt : Nat}

theorem served_of_young (hstate : stateOf domain s = some (.ready value fetchedAt))
    (hyoung : s.store.env - fetchedAt < ttl) : served ttl domain s = some value := by
  unfold served
  rw [hstate]
  exact if_pos hyoung

theorem fetches_eq_zero (h : Kept ttl s) (hserved : served ttl domain s = some value) :
    fetches domain s = 0 := by
  have hle := fetching_le_flying (SharedMap.users domain s.tasks)
  rw [h.grounded hserved] at hle
  exact Nat.le_zero.mp hle

theorem young_step (h : Kept ttl s) (hstep : (program Answer ttl).step s e = some t)
    (hstate : s.store.env - fetchedAt < ttl → stateOf domain s = some (.ready value fetchedAt))
    (hyoung : t.store.env - fetchedAt < ttl) :
    stateOf domain t = some (.ready value fetchedAt) := by
  have hbefore : s.store.env - fetchedAt < ttl :=
    lt_of_le_of_lt (Nat.sub_le_sub_right (clock_mono hstep) fetchedAt) hyoung
  have hready := hstate hbefore
  have hserved := served_of_young hready hbefore
  cases h.changed hstep domain with
  | same state => rw [state, hready]
  | stored value' work held state =>
    have hnone := h.grounded hserved
    exact absurd rfl (Multiset.countP_eq_zero.mp hnone _ held)
  | made old new =>
    rw [hready] at old
    cases old
  | swept new old =>
    rw [hserved] at old
    cases old

theorem stale_step (h : Kept ttl s) (hstep : (program Answer ttl).step s e = some t)
    (hno : ¬ Stores domain s e) (hserved : served ttl domain s = none) :
    served ttl domain t = none := by
  cases h.changed hstep domain with
  | same state =>
    unfold served at hserved ⊢
    rw [state]
    cases hs : stateOf domain s with
    | none => rfl
    | some slotState =>
      rw [hs] at hserved
      exact served_later slotState (clock_mono hstep) hserved
  | stored value work held state => exact absurd ⟨value, work⟩ hno
  | made old new =>
    unfold served
    rw [new]
    rfl
  | swept new old =>
    unfold served
    rw [new]
    rfl

theorem Kept.reuses (h : Kept ttl s) (hstate : stateOf domain s = some (.ready value fetchedAt))
    (hrun : Run (program Answer ttl).step ok s u) (hyoung : u.store.env - fetchedAt < ttl) :
    stateOf domain u = some (.ready value fetchedAt) ∧ fetches domain u = 0 ∧
      LooksUp ttl domain u (.unlocking (.ok value .hit)) := by
  have hkept := h.run hrun
  have hstay := hrun.invariant (I := fun v => Kept ttl v ∧
      (v.store.env - fetchedAt < ttl → stateOf domain v = some (.ready value fetchedAt)))
    ⟨h, fun _ => hstate⟩ fun v e w hv _ hstep =>
      ⟨hv.1.step hstep, young_step hv.1 hstep hv.2⟩
  have hready := hstay.2 hyoung
  have hserved := served_of_young hready hyoung
  exact ⟨hready, fetches_eq_zero hkept hserved, looksUp_hit hkept hserved⟩

theorem Kept.fails (h : Kept ttl s) (hstep : (program Answer ttl).step s e = some t)
    (hwork : SharedMap.workAt domain s e = some (.fetching, .answer none)) :
    stateOf domain t = stateOf domain s ∧
      ∀ u, Run (program Answer ttl).step (fun v e => ¬ Stores domain v e) t u →
        LooksUp ttl domain u .fetching := by
  have hno : ¬ Stores domain s e := by
    rintro ⟨value, hstores⟩
    rw [hwork] at hstores
    cases hstores
  obtain ⟨hsame, hfetching⟩ : stateOf domain t = stateOf domain s ∧
      .fetching ∈ SharedMap.users domain s.tasks := by
    have hshown := h.shown hstep domain
    rw [hwork] at hshown
    generalize hv : s.store.value domain = v at hshown
    generalize hv' : t.store.value domain = v' at hshown
    generalize SharedMap.users domain s.tasks = ps at hshown ⊢
    generalize SharedMap.users domain t.tasks = ps' at hshown
    cases hshown with
    | worked ps does =>
      refine ⟨?_, Multiset.mem_cons_self _ _⟩
      have does : next ttl s.store.env _ .fetching (.answer none) = some _ := does
      cases moved does with
      | failed ending no =>
        unfold stateOf
        rw [hv, hv']
  have hstale : served ttl domain s = none := by
    cases hserved : served ttl domain s with
    | none => rfl
    | some value =>
      exact absurd rfl (Multiset.countP_eq_zero.mp (h.grounded hserved) _ hfetching)
  refine ⟨hsame, fun u hrun => ?_⟩
  have hstay := hrun.invariant (I := fun v => Kept ttl v ∧ served ttl domain v = none)
    ⟨h.step hstep, stale_step h hstep hno hstale⟩ fun v e w hv hok hnext =>
      ⟨hv.1.step hnext, stale_step hv.1 hnext hok hv.2⟩
  exact looksUp_fetching hstay.1 hstay.2

theorem Kept.stored (h : Kept ttl s) (hstep : (program Answer ttl).step s e = some t)
    (hstate : stateOf domain t = some (.ready value fetchedAt)) :
    stateOf domain s = some (.ready value fetchedAt) ∨ Stores domain s e := by
  cases h.changed hstep domain with
  | same state => exact .inl (state ▸ hstate)
  | stored value' work held state => exact .inr ⟨value', work⟩
  | made old new =>
    rw [new] at hstate
    cases hstate
  | swept new old =>
    rw [new] at hstate
    cases hstate

theorem Kept.answered (h : Kept ttl s) (hstep : (program Answer ttl).step s e = some t)
    (hmem : .fetched value ∈ SharedMap.users domain t.tasks) :
    .fetched value ∈ SharedMap.users domain s.tasks ∨
      SharedMap.workAt domain s e = some (.fetching, .answer (some value)) := by
  have hshown := h.shown hstep domain
  generalize SharedMap.users domain t.tasks = ps' at hshown hmem
  generalize SharedMap.users domain s.tasks = ps at hshown ⊢
  generalize SharedMap.workAt domain s e = act at hshown ⊢
  generalize s.store.value domain = v at hshown
  generalize t.store.value domain = v' at hshown
  cases hshown with
  | still => exact .inl hmem
  | joined request v ps =>
    rcases Multiset.mem_cons.mp hmem with heq | hmem
    · cases heq
    · exact .inl hmem
  | made request =>
    rcases Multiset.mem_cons.mp hmem with heq | hmem
    · cases heq
    · exact .inl hmem
  | worked ps does =>
    rcases Multiset.mem_cons.mp hmem with rfl | hmem
    · cases moved does with
      | answered value => exact .inr rfl
    · exact .inl (Multiset.mem_cons_of_mem hmem)
  | left v ps done => exact .inl (Multiset.mem_cons_of_mem hmem)
  | swept idle => exact .inl hmem

end

/-- **Single flight**: in every interleaving of lookups, of lookups whose futures are dropped and
of sweeps, at most one fetch is in flight for a domain; an answer younger than its time to live is
served without a fetch; and an error is not cached, every lookup after it fetches until an answer
is stored. -/
theorem single_flight (Answer : Type) (ttl now : Nat) {s : State Answer}
    (hrun : Run (program Answer ttl).step (fun _ _ => True) (SharedMap.State.init now) s) :
    SingleFlight ttl s := by
  have hkept := (kept_init ttl now).run hrun
  refine ⟨hkept.one, ?_, ?_, ?_, ?_⟩
  · exact fun domain value fetchedAt hstate u hrun hyoung => hkept.reuses hstate hrun hyoung
  · exact fun domain e t hstep hwork => hkept.fails hstep hwork
  · exact fun domain e t value fetchedAt hstep hstate => hkept.stored hstep hstate
  · exact fun domain e t value hstep hmem => hkept.answered hstep hmem

namespace One

/-- Two lookups: the first fetches and fails, then the second fetches; a sweep comes between. -/
def events : List (Event Nat) :=
  [.begin (.look "example.com" ()), .go 0 none, .begin (.look "example.com" ()), .go 1 none,
    .go 0 (some .ok), .go 0 (some .ok), .begin (.sweep "example.com"), .go 2 none,
    .go 0 (some (.answer none)), .go 0 (some .ok), .go 0 none, .go 1 (some .ok), .go 1 (some .ok)]

end One

theorem single_flight_one : ∃ s : State Nat,
    Run (program Nat 60).step (fun _ _ => True) (SharedMap.State.init 0) s ∧
      s.tasks[1]? = some (.holding "example.com" 0 .fetching) ∧ SingleFlight 60 s := by
  obtain ⟨s, hrun, hfetching⟩ := exists_run_of_steps
    (P := fun s : State Nat => s.tasks[1]? == some (.holding "example.com" 0 .fetching))
    (show (steps (program Nat 60).step (SharedMap.State.init 0) One.events).any
      (fun s => s.tasks[1]? == some (.holding "example.com" 0 .fetching)) = true by decide)
  exact ⟨s, hrun, by simpa using hfetching, single_flight Nat 60 0 hrun⟩

end Uptimepage.RdapSingleflight
