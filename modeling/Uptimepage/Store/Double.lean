import Uptimepage.Store.Memory
import Uptimepage.Store.Ops
import Uptimepage.Store.Service

/-!
# The double behind the shared trait

The rest of `storage/incident_ops/memory.rs`: its paging log, its reminder counts and the
scans of the escalation engine.  `OpsCall` lists the lifecycle and escalation calls of the
trait `IncidentOpsStore`; `memoryService` and `postgresService` are the two stores behind
it, each call made at its own time.
-/

namespace Uptimepage

structure InMemoryIncidentOpsStore extends MemStore where
  notifications : List (OrgId × IncidentNotification)
  /-- An incident with no entry counts zero. -/
  renotifyCounts : Uuid → Nat

namespace InMemoryIncidentOpsStore

def empty : InMemoryIncidentOpsStore := { MemStore.empty with
  notifications := []
  renotifyCounts := fun _ => 0 }

variable (s : InMemoryIncidentOpsStore)

/-- A call that touches the rows and the timeline only. -/
def onRows {α : Type} (r : α × MemStore) : α × InMemoryIncidentOpsStore :=
  (r.1, { s with toMemStore := r.2 })

def generationOf (now : Time) (id : Uuid) : Option Nat :=
  if s.incidents.any fun i => i.id == id then some (s.reopenCount now id) else none

def recordNotification (now : Time) (n : NewIncidentNotification) :
    Uuid × InMemoryIncidentOpsStore :=
  let row : IncidentNotification := {
    id := s.nextId
    incidentId := n.incidentId
    escalationLevel := n.escalationLevel
    targetUserId := n.targetUserId
    channelId := n.channelId
    transport := n.transport
    reason := n.reason
    status := n.status
    attempt := n.attempt
    error := n.error
    createdAt := now
    sentAt := n.sentAt
    nextAttemptAt := none
    providerReceipt := none
    ackedAt := none }
  (s.nextId, { s with
    nextId := s.nextId + 1
    notifications := s.notifications ++ [(n.org, row)] })

/-! ## Scans -/

/-- Every row of the double belongs to the nil organisation. -/
def due (i : OpsIncident) : DueIncident :=
  ⟨i.id, 0, i.targetId, i.escalationPolicyId, i.escalationLevel, i.escalationRound⟩

def reconcileDue (since cutoff : Time) (i : OpsIncident) : Bool :=
  i.state == .triggered && decide (i.startedAt ≤ cutoff) && decide (since ≤ i.startedAt) &&
    i.escalationPolicyId.isNone && i.nextEscalationAt.isNone &&
    !s.notifications.any fun n => n.2.incidentId == i.id

def dueForReconcile (since cutoff : Time) (limit : Nat) : List DueIncident :=
  ((s.incidents.filter (s.reconcileDue since cutoff)).take limit).map due

/-- The double has no targets table to read a reminder interval from. -/
def dueForRenotify (_now : Time) (_limit : Nat) : List DueIncident := []

def bumpRenotifyCount (id : Uuid) : InMemoryIncidentOpsStore :=
  { s with renotifyCounts := fun k =>
      if k = id then s.renotifyCounts k + 1 else s.renotifyCounts k }

/-- When an incident was last held with this marker. -/
def heldAt (id : Uuid) (marker : Transport) : Option Time :=
  ((s.notifications.filter fun n =>
    n.2.incidentId == id && n.2.channelId.isNone && n.2.transport == marker).map
      (·.2.createdAt)).max?

def newerThan (id : Uuid) (at_ : Time) : Bool :=
  s.notifications.any fun n => n.2.incidentId == id && decide (at_ < n.2.createdAt)

/-- Held for maintenance, with nothing newer than the hold. -/
def maintenanceHeld (i : OpsIncident) : Bool :=
  i.state == .triggered && i.targetId.isSome &&
    match s.heldAt i.id .maintenance with
    | none => false
    | some at_ => !s.newerThan i.id at_

def dueForMaintenanceRelease (limit : Nat) : List DueIncident :=
  (Table.firstBy (fun i => (s.heldAt i.id .maintenance).getD 0) limit
    (s.incidents.filter s.maintenanceHeld)).map due

/-- Held by the flap damper past the hold, with nothing newer than the hold. -/
def flapHeld (cutoff : Time) (i : OpsIncident) : Bool :=
  i.state == .triggered &&
    match s.heldAt i.id .damped with
    | none => false
    | some at_ => decide (at_ ≤ cutoff) && !s.newerThan i.id at_

def dueForFlapRelease (now : Time) (hold : Int) (limit : Nat) : List DueIncident :=
  ((s.incidents.filter (s.flapHeld (now - hold))).take limit).map due

end InMemoryIncidentOpsStore

/-! ## The shared trait -/

/-- The lifecycle, paging-log and escalation calls, for one organisation. -/
inductive OpsCall
  | get (id : Uuid)
  | declare (new : NewManualIncident) (actor : Actor)
  | acknowledge (id : Uuid) (actor : Actor) (note : Option String) (expectGeneration : Option Nat)
  | generation (id : Uuid)
  | resolve (id : Uuid) (actor : Actor) (note : Option String)
  | autoResolve (id : Uuid)
  | reopen (id : Uuid) (actor : Actor) (note : Option String)
  | recordNotification (n : NewIncidentNotification)
  | beginEscalation (id policyId : Uuid) (level : Int) (nextAt : Option Time)
  | recordEscalation (id : Uuid) (level round : Int) (nextAt : Option Time)
  | dueForEscalation (now : Time) (limit : Nat) (leaseSecs : Int)
  | dueForReconcile (since cutoff : Time) (limit : Nat)
  | dueForRenotify (now : Time) (limit : Nat)
  | bumpRenotifyCount (id : Uuid)
  | dueForMaintenanceRelease (limit : Nat)
  | dueForFlapRelease (now : Time) (hold : Int) (limit : Nat)

def OpsCall.Ret : OpsCall → Type
  | get .. => Option OpsIncident
  | declare .. => OpsIncident
  | acknowledge .. | resolve .. | autoResolve .. | reopen .. => LifecycleOutcome
  | generation .. => Option Nat
  | recordNotification .. => Uuid
  | beginEscalation .. | recordEscalation .. => Bool
  | dueForEscalation .. | dueForReconcile .. | dueForRenotify .. | dueForMaintenanceRelease ..
  | dueForFlapRelease .. => List DueIncident
  | bumpRenotifyCount .. => Unit

/-- The statement a call is in the Postgres store. -/
def OpsCall.op (org : OrgId) (now : Time) : OpsCall → StoreOp
  | .get id => .get org id
  | .declare new actor => .declare now org new actor
  | .acknowledge id actor note g => .acknowledge now org id actor note g
  | .generation id => .generation org id
  | .resolve id actor note => .resolve now org id actor note
  | .autoResolve id => .autoResolve now org id
  | .reopen id actor note => .reopen now org id actor note
  | .recordNotification n => .recordNotification n
  | .beginEscalation id policyId level nextAt => .beginEscalation org id policyId level nextAt
  | .recordEscalation id level round nextAt => .recordEscalation org id level round nextAt
  | .dueForEscalation at_ limit leaseSecs => .dueForEscalation at_ limit leaseSecs
  | .dueForReconcile since cutoff limit => .dueForReconcile since cutoff limit
  | .dueForRenotify at_ limit => .dueForRenotify at_ limit
  | .bumpRenotifyCount id => .bumpRenotifyCount org id
  | .dueForMaintenanceRelease limit => .dueForMaintenanceRelease limit
  | .dueForFlapRelease at_ hold limit => .dueForFlapRelease at_ hold limit

end Uptimepage
