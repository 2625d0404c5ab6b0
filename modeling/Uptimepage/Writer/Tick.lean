import Uptimepage.Async.Run
import Uptimepage.Escalation.Machine
import Uptimepage.Writer.Decide

/-!
# Concurrent writer ticks

`process_target` of `incident_writer/mod.rs` as a machine over any incident store: a tick
reads the open incidents and the results of a monitor and decides; then it writes what it
decided, on rows that others may have changed in between; then it signals the paging
engine.  Any number of ticks are under way at once, in one process or several, and others
operate on the same store.
-/

namespace Uptimepage

open Async

/-- The trait `IncidentStore`, and what others do to the same store.  `incidents` are the ids
of the monitors' incidents, `isOpen` the incidents that have not ended. -/
structure IncidentStore (σ ο : Type) where
  openFor : σ → OrgId → Uuid → List OpenIncident
  /-- `none` when a concurrent writer already holds the open incident. -/
  insertOpen : Time → OrgId → NewOpenIncident → σ → Except StoreError (Option Uuid) × σ
  /-- `true` for the call that closed it. -/
  close : Time → OrgId → Uuid → Time → σ → Bool × σ
  operate : Time → ο → σ → σ
  incidents : σ → List Uuid
  isOpen : σ → Uuid → Bool

/-- One `process_target` under way: the groups it decided on, the actions it has still to
apply, and the signal it is about to emit. -/
structure TargetTick where
  org : OrgId
  target : ProbedTarget
  groups : List (String × List CheckResult)
  todo : List Action
  sig : Option IncidentSignal
deriving DecidableEq

/-- A signal, and whether the channel had room for it. -/
structure EmittedSignal where
  signal : IncidentSignal
  queued : Bool
deriving DecidableEq

/-- The store, the ticks under way, and the history: the signals, the incidents the writers
inserted and closed, and the store before and after each operation of others. -/
structure Writer (σ : Type) where
  store : σ
  ticks : List TargetTick
  emitted : List EmittedSignal
  inserted : List Uuid
  closed : List Uuid
  moves : List (σ × σ)
deriving DecidableEq

/-- `failed` is a statement that failed and ends its tick. -/
inductive WriterEvent (ο : Type)
  | read (org : OrgId) (target : ProbedTarget) (tagged : List (String × CheckResult)) (now : Time)
  | write (i : Nat) (now : Time)
  | failed (i : Nat)
  | signal (i : Nat) (room : Bool)
  | operate (now : Time) (o : ο)

namespace Writer

variable {σ ο : Type} (is : IncidentStore σ ο) (lookback : Int)

def start (st : σ) : Writer σ where
  store := st
  ticks := []
  emitted := []
  inserted := []
  closed := []
  moves := []

/-- The results in the monitor's own window, by region. -/
def windowGroups (target : ProbedTarget) (tagged : List (String × CheckResult)) (now : Time) :
    List (String × List CheckResult) :=
  byRegion (tagged.filter fun r => now - lookbackFor lookback target ≤ r.2.timestamp)

def read (s : Writer σ) (org : OrgId) (target : ProbedTarget)
    (tagged : List (String × CheckResult)) (now : Time) : Writer σ :=
  let tick : TargetTick := {
    org := org
    target := target
    groups := windowGroups lookback target tagged now
    todo := decideTarget lookback target (is.openFor s.store org target.id) tagged now
    sig := none }
  { s with ticks := s.ticks ++ [tick] }

/-- Applies the next action of tick `i`. -/
def write (s : Writer σ) (i : Nat) (t : TargetTick) (a : Action) (rest : List Action)
    (now : Time) : Writer σ :=
  let next (sig : Option IncidentSignal) : List TargetTick :=
    s.ticks.set i { t with todo := rest, sig := sig }
  match a with
  | .none => { s with ticks := next none }
  | .open_ new =>
    match is.insertOpen now t.org new s.store with
    | (.ok (some id), st) =>
      { s with store := st, ticks := next (some ⟨t.org, id, .opened⟩),
               inserted := s.inserted ++ [id] }
    | (.ok none, st) => { s with store := st, ticks := next none }
    | (.error _, st) => { s with store := st, ticks := s.ticks.set i { t with todo := [] } }
  | .close id endedAt =>
    match is.close now t.org id endedAt s.store with
    | (true, st) =>
      { s with store := st, ticks := next (some ⟨t.org, id, .resolved⟩),
               closed := s.closed ++ [id] }
    | (false, st) => { s with store := st, ticks := next none }

def step (s : Writer σ) : WriterEvent ο → Option (Writer σ)
  | .read org target tagged now => some (s.read is lookback org target tagged now)
  | .write i now =>
    match s.ticks[i]? with
    | some t =>
      match t.sig, t.todo with
      | none, a :: rest => some (s.write is i t a rest now)
      | _, _ => none
    | none => none
  | .failed i =>
    match s.ticks[i]? with
    | some t =>
      match t.sig, t.todo with
      | none, _ :: _ => some { s with ticks := s.ticks.set i { t with todo := [] } }
      | _, _ => none
    | none => none
  | .signal i room =>
    match s.ticks[i]? with
    | some t =>
      match t.sig with
      | some sig =>
        some { s with ticks := s.ticks.set i { t with sig := none },
                      emitted := s.emitted ++ [⟨sig, room⟩] }
      | none => none
    | none => none
  | .operate now o =>
    let st := is.operate now o s.store
    some { s with store := st, moves := s.moves ++ [(s.store, st)] }

/-! ## One step -/

/-- What a step can do.  A write that the store reports as lost, or that failed, is `quiet`:
the tick goes on without a signal. -/
inductive Move (s : Writer σ) : WriterEvent ο → Writer σ → Prop
  | read (org : OrgId) (target : ProbedTarget) (tagged : List (String × CheckResult)) (now : Time) :
      Move s (.read org target tagged now) (s.read is lookback org target tagged now)
  | quiet {e : WriterEvent ο} {i : Nat} {t : TargetTick} {todo : List Action} {st : σ} :
      s.ticks[i]? = some t → t.sig = none → todo ⊆ t.todo →
      (st = s.store ∨ (∃ now new r, is.insertOpen now t.org new s.store = (r, st) ∧
          ∀ id, r ≠ .ok (some id)) ∨
        ∃ now id endedAt, is.close now t.org id endedAt s.store = (false, st)) →
      Move s e { s with store := st, ticks := s.ticks.set i { t with todo := todo } }
  | inserted {i : Nat} {t : TargetTick} {new : NewOpenIncident} {rest : List Action} {now : Time}
      {id : Uuid} {st : σ} :
      s.ticks[i]? = some t → t.sig = none → t.todo = .open_ new :: rest →
      is.insertOpen now t.org new s.store = (.ok (some id), st) →
      Move s (.write i now)
        { s with store := st, inserted := s.inserted ++ [id],
                 ticks := s.ticks.set i { t with todo := rest, sig := some ⟨t.org, id, .opened⟩ } }
  | closed {i : Nat} {t : TargetTick} {id : Uuid} {endedAt : Time} {rest : List Action}
      {now : Time} {st : σ} :
      s.ticks[i]? = some t → t.sig = none → t.todo = .close id endedAt :: rest →
      is.close now t.org id endedAt s.store = (true, st) →
      Move s (.write i now)
        { s with store := st, closed := s.closed ++ [id],
                 ticks := s.ticks.set i { t with todo := rest, sig := some ⟨t.org, id, .resolved⟩ } }
  | signalled {i : Nat} {t : TargetTick} {sig : IncidentSignal} {room : Bool} :
      s.ticks[i]? = some t → t.sig = some sig →
      Move s (.signal i room)
        { s with ticks := s.ticks.set i { t with sig := none },
                 emitted := s.emitted ++ [⟨sig, room⟩] }
  | operated (now : Time) (o : ο) :
      Move s (.operate now o)
        { s with store := is.operate now o s.store,
                 moves := s.moves ++ [(s.store, is.operate now o s.store)] }

section

variable {is lookback} {s s' : Writer σ} {e : WriterEvent ο}

theorem write_move {i : Nat} {t : TargetTick} {a : Action} {rest : List Action} {now : Time}
    (hi : s.ticks[i]? = some t) (hsig : t.sig = none) (htodo : t.todo = a :: rest) :
    Move is lookback s (.write i now) (s.write is i t a rest now) := by
  have hsame : ({ t with todo := rest, sig := none } : TargetTick) = { t with todo := rest } := by
    rw [← hsig]
  have hrest : rest ⊆ t.todo := by
    rw [htodo]
    exact List.subset_cons_self a rest
  unfold write
  cases a with
  | none =>
    dsimp only
    rw [hsame]
    exact .quiet hi hsig hrest (.inl rfl)
  | open_ new =>
    dsimp only
    split
    · next id st hins => exact .inserted hi hsig htodo hins
    · next st hins =>
      rw [hsame]
      refine .quiet hi hsig hrest (.inr (.inl ⟨now, new, _, hins, ?_⟩))
      intro id hid
      cases hid
    · next err st hins =>
      refine .quiet hi hsig (List.nil_subset _) (.inr (.inl ⟨now, new, _, hins, ?_⟩))
      intro id hid
      cases hid
  | close id endedAt =>
    dsimp only
    split
    · next st hclose => exact .closed hi hsig htodo hclose
    · next st hclose =>
      rw [hsame]
      exact .quiet hi hsig hrest (.inr (.inr ⟨now, id, endedAt, hclose⟩))

theorem step_move (h : s.step is lookback e = some s') : Move is lookback s e s' := by
  cases e with
  | read org target tagged now =>
    cases h
    exact .read org target tagged now
  | write i now =>
    simp only [step] at h
    split at h
    · next t hi =>
      split at h
      · next a rest hsig htodo =>
        cases h
        exact write_move hi hsig htodo
      · cases h
    · cases h
  | failed i =>
    simp only [step] at h
    split at h
    · next t hi =>
      split at h
      · next hsig _ =>
        cases h
        exact .quiet hi hsig (List.nil_subset _) (.inl rfl)
      · cases h
    · cases h
  | signal i room =>
    simp only [step] at h
    split at h
    · next t hi =>
      split at h
      · next sig hsig =>
        cases h
        exact .signalled hi hsig
      · cases h
    · cases h
  | operate now o =>
    cases h
    exact .operated now o

end

/-! ## Signals -/

/-- The signals emitted for an incident, by reason. -/
def emittedCount (s : Writer σ) (id : Uuid) (reason : NotificationReason) : Nat :=
  s.emitted.countP fun e => e.signal.incidentId = id ∧ e.signal.reason = reason

/-- Whether a tick is about to emit the signal. -/
def holds (id : Uuid) (reason : NotificationReason) (t : TargetTick) : Bool :=
  t.sig.any fun sig => sig.incidentId = id ∧ sig.reason = reason

def heldCount (s : Writer σ) (id : Uuid) (reason : NotificationReason) : Nat :=
  s.ticks.countP (holds id reason)

/-- Every insert and every close has its signal, and there are no others. -/
structure Accounted (s : Writer σ) : Prop where
  opened : ∀ id, s.emittedCount id .opened + s.heldCount id .opened = s.inserted.count id
  resolved : ∀ id, s.emittedCount id .resolved + s.heldCount id .resolved = s.closed.count id

section

variable {is lookback} {s s' : Writer σ} {e : WriterEvent ο}

theorem accounted_start (st : σ) : (start st).Accounted := ⟨fun _ => rfl, fun _ => rfl⟩

theorem holds_of_none {t : TargetTick} (h : t.sig = none) (id : Uuid)
    (reason : NotificationReason) : holds id reason t = false := by
  rw [holds, h]
  rfl

theorem countP_set_tick {ticks : List TargetTick} {i : Nat} {t : TargetTick}
    (hi : ticks[i]? = some t) (t' : TargetTick) (id : Uuid) (reason : NotificationReason) :
    (ticks.set i t').countP (holds id reason) + (if holds id reason t then 1 else 0) =
      ticks.countP (holds id reason) + if holds id reason t' then 1 else 0 := by
  obtain ⟨hlt, rfl⟩ := List.getElem?_eq_some_iff.mp hi
  rw [List.countP_set hlt]
  have hpos : (if holds id reason ticks[i] then 1 else 0) ≤ ticks.countP (holds id reason) := by
    split
    · next hp => exact List.countP_pos_iff.mpr ⟨_, List.getElem_mem hlt, hp⟩
    · exact Nat.zero_le _
  omega

theorem countP_set_held {i : Nat} {t : TargetTick} (hi : s.ticks[i]? = some t)
    (hsig : t.sig = none) (todo : List Action) (org : OrgId) (id : Uuid)
    (why : NotificationReason) (id' : Uuid) (reason : NotificationReason) :
    (s.ticks.set i { t with todo := todo, sig := some ⟨org, id, why⟩ }).countP
        (holds id' reason) =
      s.heldCount id' reason + if id = id' ∧ why = reason then 1 else 0 := by
  have hset := countP_set_tick hi { t with todo := todo, sig := some ⟨org, id, why⟩ } id' reason
  rw [holds_of_none hsig] at hset
  simpa [holds, heldCount] using hset

theorem accounted_step (h : s.Accounted) (hstep : s.step is lookback e = some s') :
    s'.Accounted := by
  cases step_move hstep with
  | read org target tagged now =>
    have hheld : ∀ id reason,
        (s.read is lookback org target tagged now).heldCount id reason = s.heldCount id reason := by
      intro id reason
      unfold heldCount read
      rw [List.countP_append]
      rfl
    exact ⟨fun id => hheld id .opened ▸ h.opened id, fun id => hheld id .resolved ▸ h.resolved id⟩
  | @quiet _ i t todo st hi hsig _ _ =>
    have hheld : ∀ id reason, (s.ticks.set i { t with todo := todo }).countP (holds id reason) =
        s.heldCount id reason := by
      intro id reason
      have hset := countP_set_tick hi { t with todo := todo } id reason
      have hnone : holds id reason { t with todo := todo } = false := holds_of_none hsig _ _
      rw [holds_of_none hsig, hnone] at hset
      exact hset
    exact ⟨fun id => (congrArg _ (hheld id .opened)).trans (h.opened id),
      fun id => (congrArg _ (hheld id .resolved)).trans (h.resolved id)⟩
  | @inserted i t new rest now id st hi hsig _ _ =>
    have hheld := countP_set_held hi hsig rest t.org id .opened
    refine ⟨fun id' => ?_, fun id' => ?_⟩
    · have hbefore := h.opened id'
      unfold emittedCount at hbefore
      unfold emittedCount heldCount
      rw [hheld, List.count_append, List.count_singleton, ← Nat.add_assoc, hbefore]
      simp
    · have hbefore := h.resolved id'
      unfold emittedCount at hbefore
      unfold emittedCount heldCount
      rw [hheld]
      simpa using hbefore
  | @closed i t id endedAt rest now st hi hsig _ _ =>
    have hheld := countP_set_held hi hsig rest t.org id .resolved
    refine ⟨fun id' => ?_, fun id' => ?_⟩
    · have hbefore := h.opened id'
      unfold emittedCount at hbefore
      unfold emittedCount heldCount
      rw [hheld]
      simpa using hbefore
    · have hbefore := h.resolved id'
      unfold emittedCount at hbefore
      unfold emittedCount heldCount
      rw [hheld, List.count_append, List.count_singleton, ← Nat.add_assoc, hbefore]
      simp
  | @signalled i t sig room hi hsig =>
    let after : Writer σ := { s with ticks := s.ticks.set i { t with sig := none },
                                     emitted := s.emitted ++ [⟨sig, room⟩] }
    have htotal : ∀ id reason, after.emittedCount id reason + after.heldCount id reason =
        s.emittedCount id reason + s.heldCount id reason := by
      intro id reason
      have hset := countP_set_tick hi { t with sig := none } id reason
      have hheld : holds id reason t = decide (sig.incidentId = id ∧ sig.reason = reason) := by
        rw [holds, hsig]
        rfl
      have hnone : holds id reason { t with sig := none } = false := rfl
      rw [hheld, hnone, if_neg Bool.false_ne_true] at hset
      simp only [emittedCount, heldCount, after, List.countP_append, List.countP_singleton]
      omega
    exact ⟨fun id => (htotal id .opened).trans (h.opened id),
      fun id => (htotal id .resolved).trans (h.resolved id)⟩
  | operated now o => exact ⟨h.opened, h.resolved⟩

end

end Writer

end Uptimepage
