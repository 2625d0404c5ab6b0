import Uptimepage.Store.IncidentWriter

/-!
# Store operations

`StoreOp` lists the calls the engine, the request handlers and the incident writer make
on the database, with the type of each answer; `Db.exec` runs one.  A lifecycle
transaction carries the time it began at, which is its `now()` whenever it commits.
-/

namespace Uptimepage

inductive StoreOp
  | get (org : OrgId) (id : Uuid)
  | declare (began : Time) (org : OrgId) (new : NewManualIncident) (actor : Actor)
  | acknowledge (began : Time) (org : OrgId) (id : Uuid) (actor : Actor) (note : Option String)
      (expectGeneration : Option Nat)
  | generation (org : OrgId) (id : Uuid)
  | resolve (began : Time) (org : OrgId) (id : Uuid) (actor : Actor) (note : Option String)
  | autoResolve (began : Time) (org : OrgId) (id : Uuid)
  | reopen (began : Time) (org : OrgId) (id : Uuid) (actor : Actor) (note : Option String)
  | publish (began : Time) (org : OrgId) (id : Uuid) (title description : Option String)
      (actor : Actor)
  | unpublish (began : Time) (org : OrgId) (id : Uuid) (actor : Actor)
  | appendEvent (org : OrgId) (id : Uuid) (kind : IncidentEventKind) (actor : Actor)
      (message : Option String)
  | notificationsFor (org : OrgId) (id : Uuid)
  | recordNotification (n : NewIncidentNotification)
  | pendingNotifications (now : Time) (limit : Nat) (maxAttempts : Int)
  | markNotification (org : OrgId) (id : Uuid) (outcome : NotificationOutcome)
  | dueEmergencyAcks (limit : Nat)
  | emergencyAcksForIncident (org : OrgId) (id : Uuid)
  | markAcked (org : OrgId) (id : Uuid) (ackedAt : Time)
  | clearReceipt (org : OrgId) (id : Uuid)
  | beginEscalation (org : OrgId) (id policyId : Uuid) (level : Int) (nextAt : Option Time)
  | recordEscalation (org : OrgId) (id : Uuid) (level round : Int) (nextAt : Option Time)
  | dueForEscalation (now : Time) (limit : Nat) (leaseSecs : Int)
  | dueForReconcile (since cutoff : Time) (limit : Nat)
  | dueForRenotify (now : Time) (limit : Nat)
  | bumpRenotifyCount (org : OrgId) (id : Uuid)
  | dueForMaintenanceRelease (limit : Nat)
  | dueForFlapRelease (now : Time) (hold : Int) (limit : Nat)
  | opensSince (org : OrgId) (targetId : Uuid) (since : Time)
  | insertOpen (org : OrgId) (new : NewOpenIncident)
  | close (org : OrgId) (id : Uuid) (endedAt : Time)
  | target (org : OrgId) (id : Uuid)
  | channel (org : OrgId) (id : Uuid)
  | autoBoundIds (org : OrgId) (tags : List String)
  | recordDeliveryOutcome (org : OrgId) (id : Uuid) (delivered : Bool)
  | resolveForTarget (org : OrgId) (targetId : Uuid)
  | policy (org : OrgId) (id : Uuid)
  | contactsForUser (org : OrgId) (user : UserId)
  | resolveNow (org : OrgId) (scheduleId : Uuid) (at_ : Time)
  | alertsSuppressed (org : OrgId) (targetId : Uuid)
  | configure (settings : Settings)
  | deleteChannel (org : OrgId) (id : Uuid)

/-- The type of an operation's answer. -/
def StoreOp.Ret : StoreOp → Type
  | get .. => Option OpsIncident
  | declare .. => OpsIncident
  | acknowledge .. | resolve .. | autoResolve .. | reopen .. => LifecycleOutcome
  | generation .. => Option Nat
  | publish .. | unpublish .. => Option OpsIncident
  | notificationsFor .. => List IncidentNotification
  | recordNotification .. => Uuid
  | pendingNotifications .. => List PendingNotification
  | dueEmergencyAcks .. | emergencyAcksForIncident .. => List EmergencyAck
  | beginEscalation .. | recordEscalation .. | close .. | alertsSuppressed .. => Bool
  | dueForEscalation .. | dueForReconcile .. | dueForRenotify .. | dueForMaintenanceRelease ..
  | dueForFlapRelease .. => List DueIncident
  | opensSince .. | recordDeliveryOutcome .. => Nat
  | insertOpen .. => Option Uuid
  | target .. => Option Target
  | channel .. => Option NotificationChannel
  | autoBoundIds .. | contactsForUser .. => List Uuid
  | resolveForTarget .. => Option Uuid
  | policy .. => Option EscalationPolicy
  | resolveNow .. => List UserId
  | appendEvent .. | markNotification .. | markAcked .. | clearReceipt .. | bumpRenotifyCount ..
  | configure .. | deleteChannel .. => Unit

/-- Runs one operation at `now`; `lower` is `str::to_lowercase`. -/
def Db.exec (lower : String → String) (now : Time) :
    (o : StoreOp) → Db → Except StoreError o.Ret × Db
  | .get org id, db => (.ok (db.get org id), db)
  | .declare began org new actor, db => db.declare began org new actor
  | .acknowledge began org id actor note g, db => db.acknowledge began org id actor note g
  | .generation org id, db => (.ok (db.generation org id), db)
  | .resolve began org id actor note, db => db.resolve began org id actor note
  | .autoResolve began org id, db => db.autoResolve began org id
  | .reopen began org id actor note, db => db.reopen began org id actor note
  | .publish began org id title description actor, db =>
    let r := db.publish began org id title description actor
    (.ok r.1, r.2)
  | .unpublish began org id actor, db =>
    let r := db.unpublish began org id actor
    (.ok r.1, r.2)
  | .appendEvent org id kind actor message, db =>
    (.ok (), db.appendEvent now org id kind actor message)
  | .notificationsFor org id, db => (.ok (db.notificationsFor org id), db)
  | .recordNotification n, db =>
    let r := db.recordNotification now n
    (.ok r.1, r.2)
  | .pendingNotifications at_ limit maxAttempts, db =>
    (.ok (db.pendingNotifications at_ limit maxAttempts), db)
  | .markNotification org id outcome, db => (.ok (), db.markNotification org id outcome)
  | .dueEmergencyAcks limit, db => (.ok (db.dueEmergencyAcks limit), db)
  | .emergencyAcksForIncident org id, db => (.ok (db.emergencyAcksForIncident org id), db)
  | .markAcked org id ackedAt, db => (.ok (), db.markAcked org id ackedAt)
  | .clearReceipt org id, db => (.ok (), db.clearReceipt org id)
  | .beginEscalation org id policyId level nextAt, db =>
    let r := db.beginEscalation now org id policyId level nextAt
    (.ok r.1, r.2)
  | .recordEscalation org id level round nextAt, db =>
    let r := db.recordEscalation now org id level round nextAt
    (.ok r.1, r.2)
  | .dueForEscalation at_ limit leaseSecs, db =>
    let r := db.dueForEscalation at_ limit leaseSecs
    (.ok r.1, r.2)
  | .dueForReconcile since cutoff limit, db => (.ok (db.dueForReconcile since cutoff limit), db)
  | .dueForRenotify at_ limit, db => (.ok (db.dueForRenotify at_ limit), db)
  | .bumpRenotifyCount org id, db => (.ok (), db.bumpRenotifyCount now org id)
  | .dueForMaintenanceRelease limit, db => (.ok (db.dueForMaintenanceRelease now limit), db)
  | .dueForFlapRelease at_ hold limit, db => (.ok (db.dueForFlapRelease at_ hold limit), db)
  | .opensSince org targetId since, db => (.ok (db.opensSince org targetId since), db)
  | .insertOpen org new, db => db.insertOpen now org new
  | .close org id endedAt, db =>
    let r := db.close now org id endedAt
    (.ok r.1, r.2)
  | .target org id, db => (.ok (db.target org id), db)
  | .channel org id, db => (.ok (db.channel org id), db)
  | .autoBoundIds org tags, db => (.ok (db.autoBoundIds lower org tags), db)
  | .recordDeliveryOutcome org id delivered, db =>
    let r := db.recordDeliveryOutcome now org id delivered
    (.ok r.1, r.2)
  | .resolveForTarget org targetId, db => (.ok (db.resolveForTarget org targetId), db)
  | .policy org id, db => (.ok (db.policy org id), db)
  | .contactsForUser org user, db => (.ok (db.settings.contacts org user), db)
  | .resolveNow org scheduleId at_, db => (.ok (db.settings.onCall org scheduleId at_), db)
  | .alertsSuppressed org targetId, db => (.ok (db.alertsSuppressed now org targetId), db)
  | .configure settings, db => (.ok (), { db with settings := settings })
  | .deleteChannel org id, db => (.ok (), db.deleteChannel org id)

end Uptimepage
