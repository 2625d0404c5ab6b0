import Uptimepage.Async.Pool
import Uptimepage.Store.Ops
import Uptimepage.Escalation.Rules

/-!
# The machine the engine's tasks run on

What a task of the process can await (`Op`), and what each call does to the shared state
(`Sys`): the database, the wall clock, the page locks, the on-call roster cache and the
signal queue.  Everything the outside world decides comes with the call as a `Choice`:
how long it took, whether the statement failed, what a transport or a provider answered.
-/

namespace Uptimepage

/-- A nudge that an incident changed and its paging should be reconciled. -/
structure IncidentSignal where
  org : OrgId
  incidentId : Uuid
  reason : NotificationReason
deriving DecidableEq

/-- Capacity of the bounded signal channel. -/
def signalQueueCap : Nat := 1024

/-- Number of page locks; an incident's lock is the shard of its id. -/
def pageLockShards : Nat := 256

def pageLock (incidentId : Uuid) : Nat := incidentId % pageLockShards

/-- Lifetime of a cached on-call roster. -/
def onCallCacheTtlSecs : Nat := 15

structure ReceiptState where
  acknowledged : Bool
  expired : Bool
deriving DecidableEq

inductive Op
  | store (o : StoreOp)
  /-- Opens a transaction; the answer is its `now()`. -/
  | begin
  /-- `Utc::now()`. -/
  | now
  | lock (shard : Nat)
  | unlock (shard : Nat)
  /-- One send over a channel's transport, with the episode its acknowledge button is
  pinned to. -/
  | notify (channel : NotificationChannel) (notice : IncidentNotice) (notificationId : Uuid)
      (attempt : Int) (ackGeneration : Option Nat)
  /-- `fastrand::u64(0..=bound)`. -/
  | jitter (bound : Nat)
  | cancelReceipt (receipt : String)
  | pollReceipt (receipt : String)
  | cachedRoster (org : OrgId) (scheduleId : Uuid)
  | cacheRoster (org : OrgId) (scheduleId : Uuid) (users : List UserId)
  /-- `try_send` on the signal queue; dropped when it is full. -/
  | signal (sig : IncidentSignal)

def Op.Res : Op → Type
  | store o => Except StoreError o.Ret
  | begin => Except StoreError Time
  | now => Time
  | lock _ | unlock _ | cacheRoster .. | signal _ => Unit
  | notify .. => Except String (Option String)
  | jitter _ => Nat
  | cancelReceipt _ => Except String Unit
  | pollReceipt _ => Except String ReceiptState
  | cachedRoster .. => Option (List UserId)

/-- The calls of the process's tasks. -/
def calls : Async.Sig := ⟨Op, Op.Res⟩

/-- What the outside world decides about one call. -/
structure Choice where
  elapsed : Nat
  fails : Bool
  jitter : Nat
  delivery : Except String (Option String)
  cancelled : Except String Unit
  receipt : Except String ReceiptState

/-- A call that takes no time to speak of and goes well. -/
def Choice.calm : Choice := ⟨0, false, 0, .ok none, .ok (), .ok ⟨false, false⟩⟩

structure Sys where
  db : Db
  clock : Time
  /-- The task holding each page lock. -/
  locks : Nat → Option Nat
  /-- Cached rosters, with the time each lapses. -/
  rosters : List ((OrgId × Uuid) × List UserId × Time)
  signals : List IncidentSignal

namespace Sys

/-- The time at which a call completes. -/
def tick (s : Sys) (c : Choice) : Time := s.clock + 1 + c.elapsed

def roster (s : Sys) (now : Time) (org : OrgId) (scheduleId : Uuid) : Option (List UserId) :=
  (s.rosters.find? fun e => e.1 == (org, scheduleId) && decide (now < e.2.2)).map (·.2.1)

/-- One call of task `me`; `none` while it has to wait for a lock. -/
def call (lower : String → String) (me : Nat) :
    (o : Op) → Choice → Sys → Option (o.Res × Sys)
  | .store o, c, s =>
    let s₁ := { s with clock := s.tick c }
    if c.fails then some (.error .failed, s₁)
    else
      let r := s.db.exec lower (s.tick c) o
      some (r.1, { s₁ with db := r.2 })
  | .begin, c, s =>
    let s₁ := { s with clock := s.tick c }
    if c.fails then some (.error .failed, s₁) else some (.ok (s.tick c), s₁)
  | .now, c, s => some (s.tick c, { s with clock := s.tick c })
  | .lock shard, c, s =>
    match s.locks shard with
    | some _ => none
    | none => some ((), { s with
        clock := s.tick c
        locks := fun sh => if sh = shard then some me else s.locks sh })
  | .unlock shard, c, s => some ((), { s with
      clock := s.tick c
      locks := fun sh => if sh = shard then none else s.locks sh })
  | .notify .., c, s => some (c.delivery, { s with clock := s.tick c })
  | .jitter bound, c, s => some ((min c.jitter bound : Nat), { s with clock := s.tick c })
  | .cancelReceipt _, c, s => some (c.cancelled, { s with clock := s.tick c })
  | .pollReceipt _, c, s => some (c.receipt, { s with clock := s.tick c })
  | .cachedRoster org scheduleId, c, s =>
    some (s.roster (s.tick c) org scheduleId, { s with clock := s.tick c })
  | .cacheRoster org scheduleId users, c, s =>
    some ((), { s with
      clock := s.tick c
      rosters := ((org, scheduleId), users, s.tick c + seconds onCallCacheTtlSecs) ::
        s.rosters.filter fun e => e.1 != (org, scheduleId) })
  | .signal sig, c, s =>
    some ((), { s with
      clock := s.tick c
      signals := if s.signals.length < signalQueueCap then s.signals ++ [sig] else s.signals })

end Sys

/-- The process's machine; `lower` is `str::to_lowercase`. -/
def machine (lower : String → String) : Async.Machine calls where
  State := Sys
  Choice := Choice
  call := Sys.call lower

/-- The code of a task, ending in a value or in the store error `?` stops at. -/
abbrev Job (α : Type) : Type := Async.Fallible calls StoreError α

namespace Job

def store (o : StoreOp) : Job o.Ret := Async.Prog.call (.store o) Async.Prog.ret

def begin : Job Time := Async.Prog.call .begin Async.Prog.ret

/-- A call that cannot fail. -/
def await (o : Op) : Job o.Res := Async.Prog.call o fun r => Async.Prog.ret (.ok r)

def now : Job Time := await .now

/-- Holds the incident's page lock for the whole of `x`, whichever way it ends. -/
def locked {α : Type} (incidentId : Uuid) (x : Job α) : Job α :=
  Async.Prog.call (.lock (pageLock incidentId)) fun _ =>
    Async.Prog.bind x fun r =>
      Async.Prog.call (.unlock (pageLock incidentId)) fun _ => Async.Prog.ret r

/-- `let _ = x.await`: goes on whatever came of it. -/
def ignore {α : Type} (x : Job α) : Job Unit := do
  let _ ← x.attempt
  pure ()

end Job

end Uptimepage
