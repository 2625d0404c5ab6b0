import Uptimepage.Domain.Text
import Uptimepage.Store.Db

/-!
# The operational incident store

`storage/incident_ops/pg.rs`: the lifecycle transitions with their timeline entries and
closing public update, the escalation bookkeeping, the paging log and the scans of the
escalation engine.  A transition is one transaction under the incident's advisory lock,
so it is one step here; `now` is the time its transaction began.
-/

namespace Uptimepage

/-- The closing public update an operator's note becomes. -/
def resolvedPublicMessage (note : Option String) : String :=
  match (note.map trim).filter fun s => s != "" with
  | some n => n
  | none => "This incident has been resolved."

def autoResolvedMessage : String :=
  "Automatically resolved — monitoring checks have recovered."

def openingUpdateMessage (title description : Option String) : String :=
  let nonBlank (s : String) : Bool := trim s != ""
  match (description.filter nonBlank).or (title.filter nonBlank) with
  | some s => trim s
  | none => "We are investigating this incident."

def updateAuthor (actor : Actor) : String :=
  match actor.userId with
  | some u => toString u
  | none => "system"

/-- `GREATEST(0, EXTRACT(EPOCH FROM (ended - started))::int)`. -/
def durationSecs (startedAt endedAt : Time) : Int := max 0 ((endedAt - startedAt) / 1000000)

structure DueIncident where
  id : Uuid
  org : OrgId
  targetId : Option Uuid
  escalationPolicyId : Option Uuid
  escalationLevel : Int
  escalationRound : Int
deriving DecidableEq

def IncidentRow.due (i : IncidentRow) : DueIncident :=
  ⟨i.id, i.org, i.targetId, i.escalationPolicyId, i.escalationLevel, i.escalationRound⟩

structure PendingNotification where
  id : Uuid
  org : OrgId
  incidentId : Uuid
  channelId : Option Uuid
  transport : Transport
  reason : NotificationReason
  attempt : Int
deriving DecidableEq

/-- An emergency page awaiting its acknowledgement, with the episode it was sent in. -/
structure EmergencyAck where
  id : Uuid
  org : OrgId
  incidentId : Uuid
  channelId : Uuid
  receipt : String
  generation : Nat
deriving DecidableEq

/-- `(limit as i64).clamp(1, 1000)`. -/
def scanCap (limit : Nat) : Nat := min (max limit 1) 1000

namespace Db

variable (db : Db)

/-- `reopen_count_tx`: episodes counted off the append-only timeline. -/
def reopenCount (org : OrgId) (id : Uuid) : Nat :=
  db.events.countP fun e => e.incidentId == id && e.org == org && e.kind == .reopened

/-- The same count as it stood at `at_`. -/
def reopensBefore (org : OrgId) (id : Uuid) (at_ : Time) : Nat :=
  db.events.countP fun e => e.incidentId == id && e.org == org && e.kind == .reopened &&
    decide (e.occurredAt ≤ at_)

def generation (org : OrgId) (id : Uuid) : Option Nat :=
  (db.incident org id).map fun _ => db.reopenCount org id

def incidentWasPublished (org : OrgId) (id : Uuid) : Bool :=
  db.events.any fun e => e.incidentId == id && e.org == org && e.kind == .published

/-- Another open incident of the same origin and monitor: what the two partial unique
indexes refuse. -/
def openConflict (org : OrgId) (id : Uuid) (targetId : Option Uuid) (origin : IncidentOrigin) :
    Bool :=
  match targetId with
  | none => false
  | some t => db.incidents.any fun i =>
      i.org == org && i.id != id && i.targetId == some t && i.endedAt.isNone && i.origin == origin

/-! ## Lifecycle -/

/-- What tells the four lifecycle transactions apart: the state machine's transition, the
timeline entry, the `UPDATE` and the closing message. -/
structure Transition where
  transition : IncidentTransition
  eventKind : IncidentEventKind
  actor : Actor
  note : Option String
  /-- The statement's `SET` list at its `now()`. -/
  update : Time → IncidentRow → IncidentRow
  publicResolution : Option String
  expectGeneration : Option Nat

/-- The row a transition to `next` leaves.  One that moves nothing leaves the row alone, so
the first acknowledger keeps the credit. -/
def Transition.row (t : Transition) (now : Time) (cur : IncidentRow) (next : IncidentState) :
    IncidentRow :=
  if cur.state = next then cur else t.update now cur

/-- The closing public update, written when the incident is or ever was published; a
resolution that moved nothing is not announced twice. -/
def Transition.closing (t : Transition) (now : Time) (org : OrgId) (id : Uuid)
    (cur : IncidentRow) (next : IncidentState) : List IncidentUpdate :=
  match t.publicResolution with
  | none => []
  | some message =>
    if cur.state ≠ next ∧ ((t.row now cur next).visibility = .onStatusPage ∨
        db.incidentWasPublished org id) then
      [⟨org, id, .resolved, message, updateAuthor t.actor, now⟩]
    else []

/-- The writes of a legal transition: the row, the timeline entry (also when nothing
moved) and the closing update. -/
def applyTransition (now : Time) (org : OrgId) (id : Uuid) (t : Transition) (cur : IncidentRow)
    (next : IncidentState) : Db :=
  let logged := db.insertEvent now org id t.eventKind t.actor t.note
  { logged with
    incidents := (db.updateIncident org id fun _ => t.row now cur next).incidents
    updates := db.updates ++ t.closing db now org id cur next }

/-- The shared transition core. -/
def transition (now : Time) (org : OrgId) (id : Uuid) (t : Transition) :
    Except StoreError LifecycleOutcome × Db :=
  match db.incident org id with
  | none => (.ok .notFound, db)
  | some cur =>
    if t.expectGeneration.any fun g => db.reopenCount org id != g then (.ok .stale, db)
    else
      match nextState cur.state t.transition with
      | .error err => (.ok (.illegalTransition err), db)
      | .ok next =>
        if cur.state ≠ next ∧ (t.row now cur next).endedAt.isNone ∧
            db.openConflict org id cur.targetId cur.origin then
          (.error .alreadyOpen, db)
        else
          (.ok (.updated (t.row now cur next).toOpsIncident),
            db.applyTransition now org id t cur next)

/-- `COALESCE` keeps the first acknowledger and time. -/
def ackRow (actor : Actor) (now : Time) (i : IncidentRow) : IncidentRow :=
  { i with
    state := .acknowledged
    acknowledgedAt := i.acknowledgedAt.or (some now)
    acknowledgedBy := i.acknowledgedBy.or actor.userId
    nextEscalationAt := none
    updatedAt := now }

def ackTransition (actor : Actor) (note : Option String) (expectGeneration : Option Nat) :
    Transition where
  transition := .acknowledge
  eventKind := .acknowledged
  actor := actor
  note := note
  update := ackRow actor
  publicResolution := none
  expectGeneration := expectGeneration

/-- The `UPDATE` that resolve and auto-resolve share. -/
def resolveRow (actor : Actor) (now : Time) (i : IncidentRow) : IncidentRow :=
  { i with
    state := .resolved
    endedAt := i.endedAt.or (some now)
    durationSecs := i.durationSecs.or (some (Uptimepage.durationSecs i.startedAt now))
    resolvedBy := actor.userId
    nextEscalationAt := none
    updatedAt := now }

def resolveTransition (actor : Actor) (note : Option String) : Transition where
  transition := .resolve
  eventKind := .resolved
  actor := actor
  note := note
  update := resolveRow actor
  publicResolution := some (resolvedPublicMessage note)
  expectGeneration := none

def autoResolveTransition : Transition where
  transition := .autoResolve
  eventKind := .resolved
  actor := .system
  note := none
  update := resolveRow .system
  publicResolution := some autoResolvedMessage
  expectGeneration := none

def reopenRow (now : Time) (i : IncidentRow) : IncidentRow :=
  { i with
    state := .triggered
    endedAt := none
    durationSecs := none
    resolvedBy := none
    acknowledgedAt := none
    acknowledgedBy := none
    escalationLevel := 0
    escalationRound := 0
    renotifyCount := 0
    updatedAt := now }

def reopenTransition (actor : Actor) (note : Option String) : Transition where
  transition := .reopen
  eventKind := .reopened
  actor := actor
  note := note
  update := reopenRow
  publicResolution := none
  expectGeneration := none

def acknowledge (now : Time) (org : OrgId) (id : Uuid) (actor : Actor) (note : Option String)
    (expectGeneration : Option Nat) : Except StoreError LifecycleOutcome × Db :=
  db.transition now org id (ackTransition actor note expectGeneration)

def resolve (now : Time) (org : OrgId) (id : Uuid) (actor : Actor) (note : Option String) :
    Except StoreError LifecycleOutcome × Db :=
  db.transition now org id (resolveTransition actor note)

def autoResolve (now : Time) (org : OrgId) (id : Uuid) :
    Except StoreError LifecycleOutcome × Db :=
  db.transition now org id autoResolveTransition

def reopen (now : Time) (org : OrgId) (id : Uuid) (actor : Actor) (note : Option String) :
    Except StoreError LifecycleOutcome × Db :=
  db.transition now org id (reopenTransition actor note)

def declaredRow (now : Time) (org : OrgId) (new : NewManualIncident) : IncidentRow where
  id := db.nextId
  targetId := new.targetId
  title := new.title
  state := .triggered
  severity := new.severity
  urgency := new.urgency
  origin := .manual
  visibility := .internal
  pagingEnabled := new.notify
  countsAsDowntime := new.countsAsDowntime
  startedAt := now
  endedAt := none
  acknowledgedAt := none
  acknowledgedBy := none
  assignedTo := none
  resolvedBy := none
  escalationPolicyId := none
  escalationLevel := 0
  escalationRound := 0
  nextEscalationAt := none
  checkCount := 0
  errorSample := none
  regionsDown := []
  regionsUp := []
  createdAt := now
  updatedAt := now
  org := org
  durationSecs := none
  renotifyCount := 0

def declare (now : Time) (org : OrgId) (new : NewManualIncident) (actor : Actor) :
    Except StoreError OpsIncident × Db :=
  if db.openConflict org db.nextId new.targetId .manual then (.error .alreadyOpen, db)
  else
    let row := db.declaredRow now org new
    let db₁ := { db with nextId := db.nextId + 1, incidents := db.incidents ++ [row] }
    (.ok row.toOpsIncident, db₁.insertEvent now org row.id .triggered actor none)

def setVisibility (v : IncidentVisibility) (now : Time) (i : IncidentRow) : IncidentRow :=
  { i with visibility := v, updatedAt := now }

/-- Makes the incident public; the first publish of an active one posts an opening
update. -/
def publish (now : Time) (org : OrgId) (id : Uuid) (publicTitle publicDescription : Option String)
    (actor : Actor) : Option OpsIncident × Db :=
  match db.incident org id with
  | none => (none, db)
  | some prior =>
    let row := setVisibility .onStatusPage now prior
    let db₁ := db.updateIncident org id fun _ => row
    let db₂ := db₁.insertEvent now org id .published actor none
    let db₃ :=
      if prior.visibility == .internal && row.state != .resolved &&
          !db.updates.any fun u => u.incidentId == id && u.org == org then
        db₂.insertUpdate now org id .investigating
          (openingUpdateMessage publicTitle publicDescription) (updateAuthor actor)
      else db₂
    (some row.toOpsIncident, db₃)

def unpublish (now : Time) (org : OrgId) (id : Uuid) (actor : Actor) :
    Option OpsIncident × Db :=
  match db.incident org id with
  | none => (none, db)
  | some prior =>
    let row := setVisibility .internal now prior
    let db₁ := db.updateIncident org id fun _ => row
    (some row.toOpsIncident, db₁.insertEvent now org id .unpublished actor none)

/-- Guarded by the incident's existence, so nothing is appended to a missing one. -/
def appendEvent (now : Time) (org : OrgId) (id : Uuid) (kind : IncidentEventKind) (actor : Actor)
    (message : Option String) : Db :=
  match db.incident org id with
  | none => db
  | some _ => db.insertEvent now org id kind actor message

/-! ## Escalation bookkeeping -/

/-- `UPDATE incidents … WHERE id AND org AND state = 'triggered'`. -/
def updateTriggered (org : OrgId) (id : Uuid) (f : IncidentRow → IncidentRow) : Bool × Db :=
  match db.incident org id with
  | none => (false, db)
  | some i =>
    if i.state = .triggered then (true, db.updateIncident org id fun _ => f i) else (false, db)

/-- The timer and rung columns, which only a triggered incident's row takes. -/
def armRow (policyId : Option Uuid) (level round : Int) (nextAt : Option Time) (now : Time)
    (i : IncidentRow) : IncidentRow :=
  { i with
    escalationPolicyId := policyId
    escalationLevel := level
    escalationRound := round
    nextEscalationAt := nextAt
    updatedAt := now }

def beginEscalation (now : Time) (org : OrgId) (id policyId : Uuid) (level : Int)
    (nextAt : Option Time) : Bool × Db :=
  db.updateTriggered org id fun i => armRow (some policyId) level 0 nextAt now i

def recordEscalation (now : Time) (org : OrgId) (id : Uuid) (level round : Int)
    (nextAt : Option Time) : Bool × Db :=
  db.updateTriggered org id fun i => armRow i.escalationPolicyId level round nextAt now i

def bumpRow (now : Time) (i : IncidentRow) : IncidentRow :=
  { i with renotifyCount := i.renotifyCount + 1, updatedAt := now }

def bumpRenotifyCount (now : Time) (org : OrgId) (id : Uuid) : Db :=
  (db.updateTriggered org id (bumpRow now)).2

/-- Due for its next rung. -/
def escalationDue (now : Time) (i : IncidentRow) : Bool :=
  i.state == .triggered && i.nextEscalationAt.any fun t => decide (t ≤ now)

def leaseRow (until_ : Option Time) (i : IncidentRow) : IncidentRow :=
  { i with nextEscalationAt := until_ }

/-- Claim-and-lease: the due rows come back with their timer pushed past the lease. -/
def dueForEscalation (now : Time) (limit : Nat) (leaseSecs : Int) : List DueIncident × Db :=
  let picked := Table.firstBy (fun i => i.nextEscalationAt.getD 0) (scanCap limit)
    (db.incidents.filter (escalationDue now))
  (picked.map (·.due),
    { db with
      incidents := Table.update picked.contains
        (leaseRow (some (now + seconds (max leaseSecs 1)))) db.incidents })

/-! ## The paging log -/

def recordedRow (now : Time) (n : NewIncidentNotification) : NotificationRow where
  id := db.nextId
  incidentId := n.incidentId
  escalationLevel := n.escalationLevel
  targetUserId := n.targetUserId
  channelId := n.channelId
  transport := n.transport
  reason := n.reason
  status := n.status
  attempt := n.attempt
  error := n.error
  createdAt := now
  sentAt := n.sentAt
  nextAttemptAt := none
  providerReceipt := none
  ackedAt := none
  org := n.org

def recordNotification (now : Time) (n : NewIncidentNotification) : Uuid × Db :=
  (db.nextId, { db with
    nextId := db.nextId + 1
    notifications := db.notifications ++ [db.recordedRow now n] })

def updateNotification (org : OrgId) (id : Uuid) (f : NotificationRow → NotificationRow) : Db :=
  { db with
    notifications := Table.update (fun n => n.id == id && n.org == org) f db.notifications }

/-- A receipt is kept when the outcome carries none. -/
def markRow (o : NotificationOutcome) (n : NotificationRow) : NotificationRow :=
  { n with
    status := o.status
    attempt := o.attempt
    error := o.error
    sentAt := o.sentAt
    nextAttemptAt := o.nextAttemptAt
    providerReceipt := o.providerReceipt.or n.providerReceipt }

def markNotification (org : OrgId) (id : Uuid) (o : NotificationOutcome) : Db :=
  db.updateNotification org id (markRow o)

def markAcked (org : OrgId) (id : Uuid) (ackedAt : Time) : Db :=
  db.updateNotification org id fun n => { n with ackedAt := some ackedAt }

def clearReceipt (org : OrgId) (id : Uuid) : Db :=
  db.updateNotification org id fun n => { n with providerReceipt := none }

/-- Queued or failed, under the attempt cap, and not waiting for its backoff. -/
def pendingRow (now : Time) (maxAttempts : Int) (n : NotificationRow) : Bool :=
  (n.status == .queued || n.status == .failed) && decide (n.attempt < maxAttempts) &&
    n.nextAttemptAt.all fun t => decide (t ≤ now)

def NotificationRow.pending (n : NotificationRow) : PendingNotification :=
  ⟨n.id, n.org, n.incidentId, n.channelId, n.transport, n.reason, n.attempt⟩

/-- `ORDER BY next_attempt_at ASC NULLS FIRST`: the rows with no time first, then the rest. -/
def pendingNotifications (now : Time) (limit : Nat) (maxAttempts : Int) :
    List PendingNotification :=
  let rows := db.notifications.filter (pendingRow now maxAttempts)
  let unscheduled := rows.filter fun n => n.nextAttemptAt.isNone
  let scheduled := Table.firstBy (fun n => n.nextAttemptAt.getD 0) (scanCap limit)
    (rows.filter fun n => n.nextAttemptAt.isSome)
  ((unscheduled ++ scheduled).take (scanCap limit)).map NotificationRow.pending

/-- A sent emergency page whose receipt is still outstanding. -/
def ackOutstanding (n : NotificationRow) : Bool :=
  n.status == .sent && n.ackedAt.isNone && n.providerReceipt.isSome && n.channelId.isSome

/-- Dated by `sent_at`: the retry sweep reuses the row it was queued on. -/
def emergencyAck (n : NotificationRow) : EmergencyAck :=
  ⟨n.id, n.org, n.incidentId, n.channelId.getD 0, n.providerReceipt.getD "",
    db.reopensBefore n.org n.incidentId (n.sentAt.getD n.createdAt)⟩

def dueEmergencyAcks (limit : Nat) : List EmergencyAck :=
  (Table.firstBy (fun n => n.sentAt.getD 0) (scanCap limit)
    (db.notifications.filter ackOutstanding)).map db.emergencyAck

def emergencyAcksForIncident (org : OrgId) (id : Uuid) : List EmergencyAck :=
  (db.notifications.filter fun n => n.org == org && n.incidentId == id &&
    ackOutstanding n).map db.emergencyAck

/-! ## Scans -/

/-- Triggered inside the window, allowed to page, never paged and never armed. -/
def reconcileDue (since cutoff : Time) (i : IncidentRow) : Bool :=
  i.state == .triggered && decide (i.startedAt ≤ cutoff) && decide (since ≤ i.startedAt) &&
    i.pagingEnabled && i.escalationPolicyId.isNone && i.nextEscalationAt.isNone &&
    !db.notifications.any fun n => n.incidentId == i.id

def dueForReconcile (since cutoff : Time) (limit : Nat) : List DueIncident :=
  (Table.firstBy (fun i => i.startedAt) (scanCap limit)
    (db.incidents.filter (db.reconcileDue since cutoff))).map (·.due)

/-- `max(created_at)` over some rows. -/
def newest (rows : List IncidentNotification) : Option Time :=
  (rows.map (·.createdAt)).max?

/-- When the incident was last held with this marker. -/
def heldAt (i : IncidentRow) (marker : Transport) : Option Time :=
  newest ((db.notificationsFor i.org i.id).filter fun n =>
    n.channelId.isNone && n.transport == marker)

def newerThan (i : IncidentRow) (at_ : Time) : Bool :=
  (db.notificationsFor i.org i.id).any fun n => decide (at_ < n.createdAt)

/-- The target's row, found by id alone, carries no plan hold.  A monitor that is gone
reads as not held. -/
def notHeld (targetId : Uuid) : Bool :=
  match db.settings.targets.find? fun t => t.id == targetId with
  | some t => t.planHoldAt.isNone
  | none => true

/-- Held by the flap damper past the hold, with nothing newer than the hold. -/
def flapReleaseDue (cutoff : Time) (i : IncidentRow) : Bool :=
  i.state == .triggered &&
    match db.heldAt i .damped with
    | none => false
    | some at_ => decide (at_ ≤ cutoff) && !db.newerThan i at_

def dueForFlapRelease (now : Time) (hold : Int) (limit : Nat) : List DueIncident :=
  (Table.firstBy (fun i => (db.heldAt i .damped).getD 0) (scanCap limit)
    (db.incidents.filter (db.flapReleaseDue (now - hold)))).map (·.due)

/-- Held by a maintenance window that has let go, with nothing newer than the hold. -/
def maintenanceReleaseDue (now : Time) (i : IncidentRow) : Bool :=
  i.state == .triggered && i.endedAt.isNone &&
    match i.targetId, db.heldAt i .maintenance with
    | some t, some at_ =>
      !db.newerThan i at_ && !db.alertsSuppressed now i.org t && db.notHeld t
    | _, _ => false

def dueForMaintenanceRelease (now : Time) (limit : Nat) : List DueIncident :=
  (Table.firstBy (fun i => (db.heldAt i .maintenance).getD 0) (scanCap limit)
    (db.incidents.filter (db.maintenanceReleaseDue now))).map (·.due)

/-- Reminders double the gap, capped at a day but never below the interval asked for. -/
def renotifyGapSecs (interval renotifyCount : Nat) : Nat :=
  max interval (min (interval * 2 ^ min renotifyCount 20) 86400)

def lastPaged (i : IncidentRow) : Option Time :=
  newest ((db.notificationsFor i.org i.id).filter fun n => n.channelId.isSome)

def renotifyDue (now : Time) (i : IncidentRow) : Bool :=
  i.state == .triggered && i.endedAt.isNone && i.nextEscalationAt.isNone &&
    match i.targetId with
    | none => false
    | some tid =>
      match db.target i.org tid, db.lastPaged i with
      | some t, some at_ =>
        decide (0 < t.renotifyIntervalSecs) && t.planHoldAt.isNone &&
          !db.alertsSuppressed now i.org tid &&
          decide (at_ ≤ now - seconds (renotifyGapSecs t.renotifyIntervalSecs i.renotifyCount))
      | _, _ => false

def dueForRenotify (now : Time) (limit : Nat) : List DueIncident :=
  (Table.firstBy (fun i => (db.lastPaged i).getD 0) (scanCap limit)
    (db.incidents.filter (db.renotifyDue now))).map (·.due)

/-- The flap damper's input: the monitor's own opens, declarations left out. -/
def opensSince (org : OrgId) (targetId : Uuid) (since : Time) : Nat :=
  db.incidents.countP fun i => i.org == org && i.targetId == some targetId &&
    decide (since ≤ i.startedAt) && i.origin != .manual

end Db

end Uptimepage
