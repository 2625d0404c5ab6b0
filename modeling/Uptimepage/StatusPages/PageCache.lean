import Uptimepage.Async.Run
import Uptimepage.Async.Slots

/-!
# The public status page cache

`public_status/cache.rs`: the two slots one page has in `PageCache`, the calls of
`get_or_compute_data` on it and the calls of `invalidate`, one step for each access to a
layer.  `inner` is moka's: a miss evaluates the init future, or waits for the one that is
being evaluated (`try_get_with`), and its value goes into the layer when it is ready; an
error is shared by all who waited.  `last_good` is written inside the init future and read
where it failed.
-/

namespace Uptimepage

open Async

namespace PageCache

structure Snapshot (α : Type) where
  data : α
  readAt : Nat
deriving DecidableEq

inductive Flight (α : Type)
  | computing
  /-- The data is read, the page not stored anywhere. -/
  | read (v : Snapshot α)
  /-- `last_good` is written. -/
  | stored (v : Snapshot α)
  | ready (v : Snapshot α)
  | failed
  /-- The future was dropped. -/
  | dropped
deriving DecidableEq

def Flight.inProgress {α : Type} : Flight α → Bool
  | .computing | .read _ | .stored _ => true
  | _ => false

/-- Where a call of `get_or_compute_data` is. -/
inductive Phase (α : Type)
  | begun
  | joined (flight : Nat)
  /-- The flight failed; `last_good` is to be looked at. -/
  | fallback
  | answered (v : Snapshot α)
  | unavailable
deriving DecidableEq

structure Call (α : Type) where
  begunAt : Nat
  phase : Phase α
deriving DecidableEq

/-- Where a call of `invalidate` is. -/
inductive Clearing
  | begun
  | innerCleared
  | returned (returnedAt : Nat)
deriving DecidableEq

structure Invalidation where
  begunAt : Nat
  progress : Clearing
deriving DecidableEq

/-- `inner` has been cleared. -/
def Invalidation.pastInner (x : Invalidation) : Bool :=
  match x.progress with
  | .begun => false
  | _ => true

/-- `last_good` has been cleared too. -/
def Invalidation.pastLastGood (x : Invalidation) : Bool :=
  match x.progress with
  | .returned _ => true
  | _ => false

/-- The page's slots and everybody at work on them. -/
structure State (α : Type) where
  now : Nat
  /-- What is in the database. -/
  rows : α
  inner : Option (Snapshot α)
  lastGood : Option (Snapshot α)
  flights : List (Flight α)
  calls : List (Call α)
  invalidations : List Invalidation
deriving DecidableEq

inductive Label (α : Type)
  | write (rows : α)
  | call
  /-- `try_get_with`, as far as the first answer. -/
  | lookup (i : Nat)
  /-- The flight a call waits for has ended. -/
  | receive (i : Nat)
  /-- `self.last_good.get(&org)`. -/
  | fallback (i : Nat)
  | read (f : Nat)
  /-- `last_good.insert(org, arc.clone())`. -/
  | store (f : Nat)
  /-- The value goes into `inner`, and to those who wait. -/
  | publish (f : Nat)
  | fail (f : Nat)
  | drop (f : Nat)
  | invalidate
  /-- `self.inner.invalidate(&org)`. -/
  | clearInner (k : Nat)
  /-- `self.last_good.invalidate(&org)`. -/
  | clearLastGood (k : Nat)
  | evictInner
  | evictLastGood
deriving DecidableEq

variable {α : Type}

/-- Time passes with every step. -/
def State.tick (s : State α) : State α := { s with now := s.now + 1 }

def State.withCall (s : State α) (i : Nat) (c : Call α) (p : Phase α) : State α :=
  { s.tick with calls := s.calls.set i { c with phase := p } }

def State.withFlight (s : State α) (f : Nat) (x : Flight α) : State α :=
  { s.tick with flights := s.flights.set f x }

/-- `try_get_with`: a hit, the flight in progress, or a new one. -/
def State.lookup (s : State α) (i : Nat) (c : Call α) : State α :=
  match s.inner with
  | some v => s.withCall i c (.answered v)
  | none =>
    match s.flights.findIdx? Flight.inProgress with
    | some f => s.withCall i c (.joined f)
    | none =>
      { s.withCall i c (.joined s.flights.length) with flights := s.flights ++ [.computing] }

def Flight.outcome : Flight α → Option (Phase α)
  | .ready v => some (.answered v)
  | .failed => some .fallback
  | .dropped => some .begun
  | _ => none

def step (s : State α) : Label α → Option (State α)
  | .write rows => some { s.tick with rows := rows }
  | .call => some { s.tick with calls := s.calls ++ [⟨s.now, .begun⟩] }
  | .lookup i =>
    match s.calls[i]? with
    | some ⟨at_, .begun⟩ => some (s.lookup i ⟨at_, .begun⟩)
    | _ => none
  | .receive i =>
    match s.calls[i]? with
    | some ⟨at_, .joined f⟩ =>
      (s.flights[f]?.bind Flight.outcome).map fun p => s.withCall i ⟨at_, .joined f⟩ p
    | _ => none
  | .fallback i =>
    match s.calls[i]? with
    | some ⟨at_, .fallback⟩ =>
      some (s.withCall i ⟨at_, .fallback⟩ (match s.lastGood with
        | some stale => .answered stale
        | none => .unavailable))
    | _ => none
  | .read f =>
    match s.flights[f]? with
    | some .computing => some (s.withFlight f (.read ⟨s.rows, s.now⟩))
    | _ => none
  | .store f =>
    match s.flights[f]? with
    | some (.read v) => some { s.withFlight f (.stored v) with lastGood := some v }
    | _ => none
  | .publish f =>
    match s.flights[f]? with
    | some (.stored v) => some { s.withFlight f (.ready v) with inner := some v }
    | _ => none
  | .fail f =>
    match s.flights[f]? with
    | some .computing => some (s.withFlight f .failed)
    | some (.read _) => some (s.withFlight f .failed)
    | _ => none
  | .drop f =>
    match s.flights[f]? with
    | some x => if x.inProgress then some (s.withFlight f .dropped) else none
    | none => none
  | .invalidate => some { s.tick with invalidations := s.invalidations ++ [⟨s.now, .begun⟩] }
  | .clearInner k =>
    match s.invalidations[k]? with
    | some ⟨at_, .begun⟩ =>
      some { s.tick with
        inner := none
        invalidations := s.invalidations.set k ⟨at_, .innerCleared⟩ }
    | _ => none
  | .clearLastGood k =>
    match s.invalidations[k]? with
    | some ⟨at_, .innerCleared⟩ =>
      some { s.tick with
        lastGood := none
        invalidations := s.invalidations.set k ⟨at_, .returned s.now⟩ }
    | _ => none
  | .evictInner => some { s.tick with inner := none }
  | .evictLastGood => some { s.tick with lastGood := none }

/-- A process just started. -/
def init (rows : α) : State α := ⟨0, rows, none, none, [], [], []⟩

/-- No call begun after an invalidate has returned is answered with data read before the
invalidate began. -/
def Final (s : State α) : Prop :=
  ∀ x ∈ s.invalidations, ∀ at_, x.progress = .returned at_ → ∀ c ∈ s.calls, at_ < c.begunAt →
    ∀ v, c.phase = .answered v → x.begunAt ≤ v.readAt

/-- No snapshot is written to a layer that an invalidate begun after its read has already
cleared. -/
def Current (s : State α) : Label α → Prop
  | .store f => ∀ v, s.flights[f]? = some (.read v) →
    ∀ x ∈ s.invalidations, x.pastLastGood = true → x.begunAt ≤ v.readAt
  | .publish f => ∀ v, s.flights[f]? = some (.stored v) →
    ∀ x ∈ s.invalidations, x.pastInner = true → x.begunAt ≤ v.readAt
  | _ => True

/-! ## The invariant -/

structure Inv (s : State α) : Prop where
  calls : ∀ c ∈ s.calls, c.begunAt < s.now
  inner : ∀ x ∈ s.invalidations, x.pastInner = true → ∀ v, s.inner = some v →
    x.begunAt ≤ v.readAt
  lastGood : ∀ x ∈ s.invalidations, x.pastLastGood = true → ∀ v, s.lastGood = some v →
    x.begunAt ≤ v.readAt
  flights : ∀ x ∈ s.invalidations, ∀ at_, x.progress = .returned at_ → ∀ c ∈ s.calls,
    at_ < c.begunAt → ∀ f v, c.phase = .joined f → s.flights[f]? = some (.ready v) →
    x.begunAt ≤ v.readAt
  final : Final s

theorem inv_init (rows : α) : Inv (init rows) := by
  refine ⟨?_, ?_, ?_, ?_, ?_⟩ <;> intro x hx <;> cases hx

theorem Invalidation.past_of_returned {x : Invalidation} {at_ : Nat}
    (h : x.progress = .returned at_) : x.pastInner = true ∧ x.pastLastGood = true := by
  simp [Invalidation.pastInner, Invalidation.pastLastGood, h]

section
variable {s s' : State α} {i f k : Nat} {c : Call α} {p : Phase α}

theorem Inv.withCall (h : Inv s) (hc : s.calls[i]? = some c)
    (hjoined : ∀ f v, p = .joined f → s.flights[f]? ≠ some (.ready v))
    (hanswer : ∀ v, p = .answered v → ∀ x ∈ s.invalidations, ∀ at_, x.progress = .returned at_ →
      at_ < c.begunAt → x.begunAt ≤ v.readAt) : Inv (s.withCall i c p) := by
  have hmem : ∀ c' ∈ (s.withCall i c p).calls, c' ∈ s.calls ∨ c' = { c with phase := p } :=
    fun c' hc' => List.mem_or_eq_of_mem_set hc'
  refine ⟨fun c' hc' => ?_, h.inner, h.lastGood, fun x hx at_ hr c' hc' hlt f v hj hf => ?_,
    fun x hx at_ hr c' hc' hlt v hv => ?_⟩
  · show c'.begunAt < s.now + 1
    rcases hmem c' hc' with hc' | rfl
    · have := h.calls c' hc'
      omega
    · show c.begunAt < s.now + 1
      have := h.calls c (List.mem_of_getElem? hc)
      omega
  · rcases hmem c' hc' with hc' | rfl
    · exact h.flights x hx at_ hr c' hc' hlt f v hj hf
    · exact absurd hf (hjoined f v hj)
  · rcases hmem c' hc' with hc' | rfl
    · exact h.final x hx at_ hr c' hc' hlt v hv
    · exact hanswer v hv x hx at_ hr hlt

theorem Inv.newFlight (h : Inv s) : Inv { s with flights := s.flights ++ [.computing] } := by
  refine ⟨h.calls, h.inner, h.lastGood, fun x hx at_ hr c hc hlt f v hj hf => ?_, h.final⟩
  rcases getElem?_snoc_cases hf with hf | ⟨-, hf⟩
  · exact h.flights x hx at_ hr c hc hlt f v hj hf
  · cases hf

theorem Inv.withFlight (h : Inv s) {x : Flight α}
    (hready : ∀ v, x = .ready v → ∀ y ∈ s.invalidations, y.pastInner = true →
      y.begunAt ≤ v.readAt) : Inv (s.withFlight f x) := by
  refine ⟨fun c hc => ?_, h.inner, h.lastGood, fun y hy at_ hr c hc hlt f' v hj hf => ?_, h.final⟩
  · show c.begunAt < s.now + 1
    have := h.calls c hc
    omega
  · rcases getElem?_set_cases hf with ⟨-, hx⟩ | ⟨-, hf⟩
    · exact hready v hx.symm y hy (Invalidation.past_of_returned hr).1
    · exact h.flights y hy at_ hr c hc hlt f' v hj hf

theorem Inv.setInner (h : Inv s) {v : Snapshot α}
    (hv : ∀ x ∈ s.invalidations, x.pastInner = true → x.begunAt ≤ v.readAt) :
    Inv { s with inner := some v } := by
  refine ⟨h.calls, fun x hx hpast w hw => ?_, h.lastGood, h.flights, h.final⟩
  obtain rfl : v = w := Option.some.inj hw
  exact hv x hx hpast

theorem Inv.setLastGood (h : Inv s) {v : Snapshot α}
    (hv : ∀ x ∈ s.invalidations, x.pastLastGood = true → x.begunAt ≤ v.readAt) :
    Inv { s with lastGood := some v } := by
  refine ⟨h.calls, h.inner, fun x hx hpast w hw => ?_, h.flights, h.final⟩
  obtain rfl : v = w := Option.some.inj hw
  exact hv x hx hpast

theorem Inv.tick (h : Inv s) : Inv s.tick := by
  refine ⟨fun c hc => ?_, h.inner, h.lastGood, h.flights, h.final⟩
  show c.begunAt < s.now + 1
  have := h.calls c hc
  omega

theorem Inv.dropInner (h : Inv s) : Inv { s with inner := none } :=
  ⟨h.calls, fun _ _ _ _ hv => (by cases hv), h.lastGood, h.flights, h.final⟩

theorem Inv.dropLastGood (h : Inv s) : Inv { s with lastGood := none } :=
  ⟨h.calls, h.inner, fun _ _ _ _ hv => (by cases hv), h.flights, h.final⟩

theorem Inv.newCall (h : Inv s) :
    Inv { s.tick with calls := s.calls ++ [⟨s.now, .begun⟩] } := by
  have hmem : ∀ c ∈ s.calls ++ [(⟨s.now, .begun⟩ : Call α)], c ∈ s.calls ∨ c = ⟨s.now, .begun⟩ :=
    fun c hc => by simpa using hc
  refine ⟨fun c hc => ?_, h.inner, h.lastGood, fun x hx at_ hr c hc hlt f v hj hf => ?_,
    fun x hx at_ hr c hc hlt v hv => ?_⟩
  · show c.begunAt < s.now + 1
    rcases hmem c hc with hc | rfl
    · have := h.calls c hc
      omega
    · show s.now < s.now + 1
      omega
  · rcases hmem c hc with hc | rfl
    · exact h.flights x hx at_ hr c hc hlt f v hj hf
    · cases hj
  · rcases hmem c hc with hc | rfl
    · exact h.final x hx at_ hr c hc hlt v hv
    · cases hv

theorem Inv.invalidate (h : Inv s) :
    Inv { s.tick with invalidations := s.invalidations ++ [⟨s.now, .begun⟩] } := by
  have hmem : ∀ x ∈ s.invalidations ++ [(⟨s.now, .begun⟩ : Invalidation)],
      x ∈ s.invalidations ∨ x = ⟨s.now, .begun⟩ := fun x hx => by simpa using hx
  refine ⟨h.tick.calls, fun x hx hpast => ?_, fun x hx hpast => ?_, fun x hx at_ hr => ?_,
    fun x hx at_ hr => ?_⟩
  · rcases hmem x hx with hx | rfl
    · exact h.inner x hx hpast
    · cases hpast
  · rcases hmem x hx with hx | rfl
    · exact h.lastGood x hx hpast
    · cases hpast
  · rcases hmem x hx with hx | rfl
    · exact h.flights x hx at_ hr
    · cases hr
  · rcases hmem x hx with hx | rfl
    · exact h.final x hx at_ hr
    · cases hr

theorem Inv.clearInner (h : Inv s) (at_ : Nat) :
    Inv { s.tick with
      inner := none
      invalidations := s.invalidations.set k ⟨at_, .innerCleared⟩ } := by
  have hmem : ∀ x ∈ s.invalidations.set k ⟨at_, .innerCleared⟩,
      x ∈ s.invalidations ∨ x = ⟨at_, .innerCleared⟩ := fun x hx => List.mem_or_eq_of_mem_set hx
  refine ⟨h.tick.calls, fun _ _ _ _ hv => (by cases hv), fun x hx hpast => ?_,
    fun x hx at_ hr => ?_, fun x hx at_ hr => ?_⟩
  · rcases hmem x hx with hx | rfl
    · exact h.lastGood x hx hpast
    · cases hpast
  · rcases hmem x hx with hx | rfl
    · exact h.flights x hx at_ hr
    · cases hr
  · rcases hmem x hx with hx | rfl
    · exact h.final x hx at_ hr
    · cases hr

theorem Inv.clearLastGood (h : Inv s) {at_ : Nat}
    (hk : s.invalidations[k]? = some ⟨at_, .innerCleared⟩) :
    Inv { s.tick with
      lastGood := none
      invalidations := s.invalidations.set k ⟨at_, .returned s.now⟩ } := by
  have hmem : ∀ x ∈ s.invalidations.set k ⟨at_, .returned s.now⟩,
      x ∈ s.invalidations ∨ x = ⟨at_, .returned s.now⟩ := fun x hx => List.mem_or_eq_of_mem_set hx
  have hnone : ∀ c ∈ s.calls, ¬ s.now < c.begunAt := by
    intro c hc
    have := h.calls c hc
    omega
  refine ⟨h.tick.calls, fun x hx hpast => ?_, fun _ _ _ _ hv => (by cases hv),
    fun x hx t hr c hc hlt => ?_, fun x hx t hr c hc hlt => ?_⟩
  · rcases hmem x hx with hx | rfl
    · exact h.inner x hx hpast
    · exact h.inner ⟨at_, .innerCleared⟩ (List.mem_of_getElem? hk) rfl
  · rcases hmem x hx with hx | rfl
    · exact h.flights x hx t hr c hc hlt
    · cases hr
      exact absurd hlt (hnone c hc)
  · rcases hmem x hx with hx | rfl
    · exact h.final x hx t hr c hc hlt
    · cases hr
      exact absurd hlt (hnone c hc)

theorem Inv.lookup (h : Inv s) (hc : s.calls[i]? = some c) : Inv (s.lookup i c) := by
  unfold State.lookup
  split
  · next v hv =>
    refine h.withCall hc (fun f w hp => by cases hp) fun w hw x hx at_ hr hlt => ?_
    cases hw
    exact h.inner x hx (Invalidation.past_of_returned hr).1 v hv
  · split
    · next f hf =>
      refine h.withCall hc (fun f' v hp hready => ?_) (fun w hw => ?_)
      · cases hp
        obtain ⟨hlt, hprog, -⟩ := List.findIdx?_eq_some_iff_getElem.mp hf
        rw [List.getElem?_eq_getElem hlt] at hready
        rw [Option.some.inj hready] at hprog
        cases hprog
      · cases hw
    · refine h.newFlight.withCall (s := { s with flights := s.flights ++ [.computing] }) hc
        (fun f v hp hready => ?_) (fun w hw => ?_)
      · cases hp
        simp at hready
      · cases hw

theorem Inv.receive (h : Inv s) {at_ : Nat} {x : Flight α}
    (hc : s.calls[i]? = some ⟨at_, .joined f⟩) (hf : s.flights[f]? = some x)
    (hp : x.outcome = some p) : Inv (s.withCall i ⟨at_, .joined f⟩ p) := by
  refine h.withCall hc (fun f' v hj => ?_) fun v hv y hy t hr hlt => ?_
  · subst hj
    cases x <;> cases hp
  · subst hv
    cases x with
    | ready w =>
      cases hp
      exact h.flights y hy t hr _ (List.mem_of_getElem? hc) hlt f _ rfl hf
    | _ => cases hp

theorem Inv.fallback (h : Inv s) {at_ : Nat} (hc : s.calls[i]? = some ⟨at_, .fallback⟩) :
    Inv (s.withCall i ⟨at_, .fallback⟩ (match s.lastGood with
      | some stale => .answered stale
      | none => .unavailable)) := by
  refine h.withCall hc (fun f v hp => ?_) fun v hv x hx t hr hlt => ?_
  · split at hp <;> cases hp
  · split at hv
    · next w hw =>
      cases hv
      exact h.lastGood x hx (Invalidation.past_of_returned hr).2 _ hw
    · cases hv

end

theorem inv_step {s s' : State α} {l : Label α} (h : Inv s) (hok : Current s l)
    (hstep : step s l = some s') : Inv s' := by
  cases l with
  | write rows =>
    cases hstep
    exact ⟨h.tick.calls, h.inner, h.lastGood, h.flights, h.final⟩
  | call =>
    cases hstep
    exact h.newCall
  | lookup i =>
    simp only [step] at hstep
    split at hstep
    · next hc =>
      cases hstep
      exact h.lookup hc
    · cases hstep
  | receive i =>
    simp only [step] at hstep
    split at hstep
    · next hc =>
      obtain ⟨p, hp, rfl⟩ := Option.map_eq_some_iff.mp hstep
      obtain ⟨x, hx, hp⟩ := Option.bind_eq_some_iff.mp hp
      exact h.receive hc hx hp
    · cases hstep
  | fallback i =>
    simp only [step] at hstep
    split at hstep
    · next hc =>
      cases hstep
      exact h.fallback hc
    · cases hstep
  | read f =>
    simp only [step] at hstep
    split at hstep
    · cases hstep
      exact h.withFlight fun v hv => by cases hv
    · cases hstep
  | store f =>
    simp only [step] at hstep
    split at hstep
    · next v hf =>
      cases hstep
      exact (h.withFlight fun w hw => by cases hw).setLastGood (hok v hf)
    · cases hstep
  | publish f =>
    simp only [step] at hstep
    split at hstep
    · next v hf =>
      cases hstep
      refine (h.withFlight fun w hw => ?_).setInner (hok v hf)
      cases hw
      exact hok v hf
    · cases hstep
  | fail f =>
    simp only [step] at hstep
    split at hstep
    · cases hstep
      exact h.withFlight fun v hv => by cases hv
    · cases hstep
      exact h.withFlight fun v hv => by cases hv
    · cases hstep
  | drop f =>
    simp only [step] at hstep
    split at hstep
    · split at hstep
      · cases hstep
        exact h.withFlight fun v hv => by cases hv
      · cases hstep
    · cases hstep
  | invalidate =>
    cases hstep
    exact h.invalidate
  | clearInner k =>
    simp only [step] at hstep
    split at hstep
    · cases hstep
      exact h.clearInner _
    · cases hstep
  | clearLastGood k =>
    simp only [step] at hstep
    split at hstep
    · next hk =>
      cases hstep
      exact h.clearLastGood hk
    · cases hstep
  | evictInner =>
    cases hstep
    exact h.tick.dropInner
  | evictLastGood =>
    cases hstep
    exact h.tick.dropLastGood

/-- **Invalidation is final** in every run that writes no outdated snapshot to a cleared
layer. -/
theorem invalidate_final (rows : α) (s : State α)
    (h : Run step Current (init rows) s) : Final s :=
  (h.invariant (inv_init rows) fun _ _ _ hi hok hstep => inv_step hi hok hstep).final

/-- The guard of a step, evaluated. -/
def current (s : State α) : Label α → Bool
  | .store f =>
    match s.flights[f]? with
    | some (.read v) => s.invalidations.all fun x => !x.pastLastGood || decide (x.begunAt ≤ v.readAt)
    | _ => true
  | .publish f =>
    match s.flights[f]? with
    | some (.stored v) => s.invalidations.all fun x => !x.pastInner || decide (x.begunAt ≤ v.readAt)
    | _ => true
  | _ => true

theorem current_of (s : State α) (l : Label α) (h : current s l = true) : Current s l := by
  cases l with
  | store f =>
    intro v hv x hx hpast
    simp only [current, hv, List.all_eq_true] at h
    simpa [hpast] using h x hx
  | publish f =>
    intro v hv x hx hpast
    simp only [current, hv, List.all_eq_true] at h
    simpa [hpast] using h x hx
  | _ => trivial

namespace One

def served : List (Label Bool) :=
  [.call, .lookup 0, .read 0, .store 0, .publish 0, .receive 0, .write false, .invalidate,
    .clearInner 0, .clearLastGood 0, .call, .lookup 1, .read 1, .store 1, .publish 1, .receive 1]

/-- The page is disabled and invalidated after a reader has read it, and before the reader
is through. -/
def slow : List (Label Bool) :=
  [.call, .lookup 0, .read 0, .write false, .invalidate, .clearInner 0, .clearLastGood 0, .store 0,
    .publish 0, .call, .lookup 1]

/-- The `i`-th call was answered with this data. -/
def answeredWith (s : State Bool) (i : Nat) (data : Bool) : Bool :=
  match s.calls[i]? with
  | some ⟨_, .answered v⟩ => v.data == data
  | _ => false

end One

theorem invalidate_final_served : ∃ s : State Bool,
    (One.answeredWith s 0 true && One.answeredWith s 1 false) = true ∧ Final s := by
  have h : (steps (guarded step current) (init true) One.served).any
      (fun s => One.answeredWith s 0 true && One.answeredWith s 1 false) = true := by
    decide +kernel
  obtain ⟨s, hrun, hs⟩ := exists_run_of_steps h
  exact ⟨s, hs, invalidate_final true s (hrun.unguard current_of)⟩

/-- The page disabled before the call began is served to it, off the hot layer. -/
theorem disabled_page_returns : ∃ s : State Bool,
    Run step (fun _ _ => True) (init true) s ∧ One.answeredWith s 1 true = true ∧ ¬ Final s := by
  have h : (steps step (init true) One.slow).any (fun s =>
      One.answeredWith s 1 true && s.invalidations.any fun x => match x.progress with
        | .returned at_ => s.calls.any fun c => decide (at_ < c.begunAt) && match c.phase with
          | .answered v => decide (v.readAt < x.begunAt)
          | _ => false
        | _ => false) = true := by
    decide +kernel
  obtain ⟨s, hrun, hs⟩ := exists_run_of_steps h
  obtain ⟨hans, hs⟩ := Bool.and_eq_true_iff.mp hs
  refine ⟨s, hrun, hans, fun hfinal => ?_⟩
  obtain ⟨x, hx, hs⟩ := List.any_eq_true.mp hs
  split at hs
  · next at_ hr =>
    obtain ⟨c, hc, hs⟩ := List.any_eq_true.mp hs
    obtain ⟨hlt, hs⟩ := Bool.and_eq_true_iff.mp hs
    split at hs
    · next v hv =>
      have hle := hfinal x hx at_ hr c hc (by simpa using hlt) v hv
      have : v.readAt < x.begunAt := by simpa using hs
      omega
    · cases hs
  · cases hs

end PageCache

end Uptimepage
