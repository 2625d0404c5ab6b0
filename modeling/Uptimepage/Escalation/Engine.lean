import Uptimepage.Async.Run
import Uptimepage.Escalation.Episode

/-!
# The engine

The process as a pool of tasks over one machine.  A received signal is handled in a task
of its own; a sweep goes through its phases one after another, each a scan and then its
items, run concurrently; everything else the process does to the incidents (the console's
and the API's requests, the incident writer's writes) is a request task.
-/

namespace Uptimepage

open Async Job

/-- Items a phase runs at once. -/
def sweepConcurrency : Nat := 8

/-! ## Requests -/

/-- What the rest of the process does: lifecycle requests, the writer's opens and closes,
and console edits. -/
inductive Request
  | declare (org : OrgId) (new : NewManualIncident) (user : UserId)
  | acknowledge (org : OrgId) (id : Uuid) (actor : Actor) (note : Option String)
      (expectGeneration : Option Nat)
  | resolve (org : OrgId) (id : Uuid) (actor : Actor) (note : Option String)
  | reopen (org : OrgId) (id : Uuid) (actor : Actor) (note : Option String)
  | publish (org : OrgId) (id : Uuid) (title description : Option String) (actor : Actor)
  | unpublish (org : OrgId) (id : Uuid) (actor : Actor)
  | openIncident (org : OrgId) (new : NewOpenIncident)
  | closeIncident (org : OrgId) (id : Uuid) (endedAt : Time)
  | configure (settings : Settings)
  | deleteChannel (org : OrgId) (id : Uuid)

def signalIncident (org : OrgId) (id : Uuid) (reason : NotificationReason) : Job Unit :=
  await (.signal ⟨org, id, reason⟩)

def signalIf (b : Bool) (org : OrgId) (id : Uuid) (reason : NotificationReason) : Job Unit :=
  if b then signalIncident org id reason else pure ()

def publishOnce (org : OrgId) (id : Uuid) (user : UserId) : Job (Option OpsIncident) := do
  let began ← begin
  store (.publish began org id none none (.user user))

/-- Publishing must not fail the declaration: the incident is already open. -/
def publishDeclared (org : OrgId) (id : Uuid) (visibility : IncidentVisibility) (user : UserId) :
    Job Unit :=
  if visibility = .onStatusPage then ignore (publishOnce org id user) else pure ()

def Request.handle : Request → Job Unit
  | declare org new user => do
    let began ← begin
    let inc ← store (.declare began org new (.user user))
    publishDeclared org inc.id new.visibility user
    signalIf new.notify org inc.id .opened
  | acknowledge org id actor note g => do
    let began ← begin
    let _ ← store (.acknowledge began org id actor note g)
  | resolve org id actor note => do
    let began ← begin
    match ← store (.resolve began org id actor note) with
    | .updated inc => signalIncident org inc.id .resolved
    | _ => pure ()
  | reopen org id actor note => do
    let began ← begin
    match ← store (.reopen began org id actor note) with
    | .updated inc => signalIf inc.pagingEnabled org inc.id .reopened
    | _ => pure ()
  | publish org id title description actor => do
    let began ← begin
    let _ ← store (.publish began org id title description actor)
  | unpublish org id actor => do
    let began ← begin
    let _ ← store (.unpublish began org id actor)
  | openIncident org new => do
    match ← store (.insertOpen org new) with
    | some id => signalIncident org id .opened
    | none => pure ()
  | closeIncident org id endedAt => do
    let closed ← store (.close org id endedAt)
    signalIf closed org id .resolved
  | configure settings => store (.configure settings)
  | deleteChannel org id => store (.deleteChannel org id)

/-! ## Tasks -/

/-- One item of a sweep's phase. -/
inductive Item
  | reconcile (d : DueIncident)
  | release (d : DueIncident)
  | escalate (d : DueIncident)
  | renotify (d : DueIncident)
  | retry (p : PendingNotification)
  | pollAck (a : EmergencyAck)
deriving DecidableEq

inductive Tag
  | signal (sig : IncidentSignal)
  | item (it : Item)
  | request (r : Request)

namespace Worker

variable (w : Worker)

def runItem : Item → Job Unit
  | .reconcile d => w.page d.org d.id .opened
  | .release d => w.releaseOne d
  | .escalate d => w.escalateOne d
  | .renotify d => w.renotifyOne d
  | .retry p => w.retryOne p
  | .pollAck a => pollOneAck a

/-- The code of a task; an error it ends in is logged and dropped. -/
def code : Tag → Prog calls Unit
  | .signal sig => (w.page sig.org sig.incidentId sig.reason).detach
  | .item it => (w.runItem it).detach
  | .request r => r.handle.detach

end Worker

/-! ## The sweep -/

inductive Phase
  | reconcile
  | releaseHeld
  | releaseMaintenance
  | escalateDue
  | renotifyDue
  | retryPending
  | pollAcks
deriving DecidableEq

def Phase.next : Phase → Option Phase
  | reconcile => some releaseHeld
  | releaseHeld => some releaseMaintenance
  | releaseMaintenance => some escalateDue
  | escalateDue => some renotifyDue
  | renotifyDue => some retryPending
  | retryPending => some pollAcks
  | pollAcks => none

/-- A sweep in progress: its phase, the items scanned and not yet started (`none` before
the scan), and the tasks of the phase. -/
structure Sweep where
  phase : Phase
  todo : Option (List Item)
  running : List Nat

/-- The scan of a phase at `now`: the items it finds and the database it leaves. -/
def Worker.scan (w : Worker) (now : Time) (db : Db) : Phase → List Item × Db
  | .reconcile =>
    ((db.dueForReconcile (now - seconds (max w.cfg.reconcileWindowSecs 1 : Nat))
      (now - seconds (max w.cfg.tickIntervalSecs 1 : Nat))
      (max w.cfg.maxPagesPerTick 1)).map .reconcile, db)
  | .releaseHeld =>
    ((db.dueForFlapRelease now (seconds (max w.cfg.flapHoldSecs 1 : Nat))
      (max w.cfg.maxPagesPerTick 1)).map .release, db)
  | .releaseMaintenance =>
    ((db.dueForMaintenanceRelease now (max w.cfg.maxPagesPerTick 1)).map .release, db)
  | .escalateDue =>
    let r := db.dueForEscalation now (max w.cfg.maxPagesPerTick 1)
      (max (max w.cfg.tickIntervalSecs 1 * 2 : Nat) 60)
    (r.1.map .escalate, r.2)
  | .renotifyDue => ((db.dueForRenotify now (max w.cfg.maxPagesPerTick 1)).map .renotify, db)
  | .retryPending =>
    ((db.pendingNotifications now (max w.cfg.maxPagesPerTick 1) w.cfg.maxAttempts).map .retry, db)
  | .pollAcks => ((db.dueEmergencyAcks (max w.cfg.maxPagesPerTick 1)).map .pollAck, db)

/-! ## Steps -/

structure Engine (lower : String → String) where
  pool : Pool (machine lower) Tag
  sweep : Option Sweep

inductive Label
  /-- Task `i` makes its next call. -/
  | task (i : Nat) (c : Choice)
  /-- The oldest queued signal is received and its task spawned. -/
  | recv
  | request (r : Request)
  /-- A tick with no sweep in flight. -/
  | tick
  | scan (c : Choice)
  /-- The next scanned item is started. -/
  | start
  /-- The phase is over: nothing of it is running, and what is not started is left for the
  next tick. -/
  | advance

namespace Engine

variable {lower : String → String}

abbrev sys (e : Engine lower) : Sys := e.pool.world.store

abbrev db (e : Engine lower) : Db := e.sys.db

/-- A fresh process over a database. -/
def boot (lower : String → String) (db : Db) (clock : Time) : Engine lower where
  pool := ⟨⟨⟨db, clock, fun _ => none, [], []⟩, [], []⟩, []⟩
  sweep := none

def spawn (w : Worker) (e : Engine lower) (t : Tag) : Engine lower :=
  { e with pool := e.pool.spawn t (w.code t) }

def withStore (e : Engine lower) (s : Sys) : Engine lower :=
  { e with pool := { e.pool with world := { e.pool.world with store := s } } }

def step (w : Worker) (e : Engine lower) : Label → Option (Engine lower)
  | .task i c => (e.pool.sched i c).map fun p => { e with pool := p }
  | .recv =>
    match e.sys.signals with
    | [] => none
    | sig :: rest => some ((e.withStore { e.sys with signals := rest }).spawn w (.signal sig))
  | .request r => some (e.spawn w (.request r))
  | .tick =>
    match e.sweep with
    | some _ => none
    | none => some { e with sweep := some ⟨.reconcile, none, []⟩ }
  | .scan c =>
    match e.sweep with
    | some ⟨phase, none, running⟩ =>
      let now := e.sys.tick c
      if c.fails then
        some { (e.withStore { e.sys with clock := now }) with
          sweep := some ⟨phase, some [], running⟩ }
      else
        let r := w.scan now e.db phase
        some { (e.withStore { e.sys with clock := now, db := r.2 }) with
          sweep := some ⟨phase, some r.1, running⟩ }
    | _ => none
  | .start =>
    match e.sweep with
    | some ⟨phase, some (it :: rest), running⟩ =>
      if (running.filter e.pool.live).length < sweepConcurrency then
        some { (e.spawn w (.item it)) with
          sweep := some ⟨phase, some rest, e.pool.progs.length :: running⟩ }
      else none
    | _ => none
  | .advance =>
    match e.sweep with
    | some ⟨phase, some _, running⟩ =>
      if running.any e.pool.live then none
      else some { e with sweep := phase.next.map fun p => ⟨p, none, []⟩ }
    | _ => none

end Engine

end Uptimepage
