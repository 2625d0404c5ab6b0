import Uptimepage.Domain.Target
import Uptimepage.Domain.EscalationPolicy
import Uptimepage.Store.Table

/-!
# The database

The tables the incident stores and the escalation engine read and write.  `Settings`
holds what the console edits and paging only reads (with the delivery run of a channel,
which paging also writes); the other tables are the incidents, their timeline, their
paging log and the public narration.
-/

namespace Uptimepage

/-- A row of `incidents`: the operational projection with the columns only the store
uses. -/
structure IncidentRow extends OpsIncident where
  org : OrgId
  durationSecs : Option Int
  renotifyCount : Nat
deriving DecidableEq

structure EventRow extends IncidentEvent where
  org : OrgId
deriving DecidableEq

structure NotificationRow extends IncidentNotification where
  org : OrgId
deriving DecidableEq

inductive UpdatePhase
  | investigating
  | identified
  | monitoring
  | resolved
deriving DecidableEq

/-- A row of `incident_updates`, the customer-facing timeline. -/
structure IncidentUpdate where
  org : OrgId
  incidentId : Uuid
  phase : UpdatePhase
  message : String
  author : String
  createdAt : Time
deriving DecidableEq

structure StatusPageComponent where
  org : OrgId
  targetId : Uuid
  pageEnabled : Bool
  pagePlanHoldAt : Option Time
deriving DecidableEq

structure Settings where
  targets : List Target
  channels : List NotificationChannel
  policies : List EscalationPolicy
  /-- `organizations.default_escalation_policy_id`. -/
  orgDefaultPolicy : OrgId → Option Uuid
  windows : List MaintenanceWindow
  components : List StatusPageComponent
  /-- `user_contact_channels`, in order. -/
  contacts : OrgId → UserId → List Uuid
  /-- Who the on-call tables put on call for a schedule at a time. -/
  onCall : OrgId → Uuid → Time → List UserId

structure Db where
  /-- The next unused row id. -/
  nextId : Uuid
  settings : Settings
  incidents : List IncidentRow
  events : List EventRow
  notifications : List NotificationRow
  updates : List IncidentUpdate

/-- An empty installation. -/
def Settings.empty : Settings where
  targets := []
  channels := []
  policies := []
  orgDefaultPolicy := fun _ => none
  windows := []
  components := []
  contacts := fun _ _ => []
  onCall := fun _ _ _ => []

def Db.empty : Db where
  nextId := 0
  settings := .empty
  incidents := []
  events := []
  notifications := []
  updates := []

/-- What a failed statement reports. -/
inductive StoreError
  /-- The statement, or the connection under it, failed. -/
  | failed
  /-- `INCIDENT_ALREADY_OPEN`, a unique index of open incidents. -/
  | alreadyOpen
  /-- The writer was asked to open an incident from a passing check. -/
  | openFromUp
deriving DecidableEq

namespace Db

variable (db : Db)

/-! ## Settings -/

def target (org : OrgId) (id : Uuid) : Option Target :=
  db.settings.targets.find? fun t => t.org == org && t.id == id

def channel (org : OrgId) (id : Uuid) : Option NotificationChannel :=
  db.settings.channels.find? fun c => c.org == org && c.id == id

def policy (org : OrgId) (id : Uuid) : Option EscalationPolicy :=
  db.settings.policies.find? fun p => p.org == org && p.id == id && p.deletedAt.isNone

/-- A monitor's own policy, else the organisation's default, unless deleted. -/
def resolveForTarget (org : OrgId) (targetId : Uuid) : Option Uuid :=
  match db.target org targetId with
  | none => none
  | some t =>
    match t.escalationPolicyId.or (db.settings.orgDefaultPolicy org) with
    | none => none
    | some pid => (db.policy org pid).map (·.id)

/-- A window is silencing this monitor right now. -/
def alertsSuppressed (now : Time) (org : OrgId) (targetId : Uuid) : Bool :=
  db.settings.windows.any fun w =>
    w.org == org && w.targets.contains targetId && w.suppressAlerts &&
      decide (w.startsAt ≤ now) && decide (now < w.endsAt)

/-- Channels whose tag rule covers a monitor carrying `tags`. -/
def autoBoundIds (lower : String → String) (org : OrgId) (tags : List String) : List Uuid :=
  if tags.isEmpty then []
  else
    ((db.settings.channels.filter fun c => c.org == org && !c.autoBindTags.isEmpty).filter
      fun c => matchesFolded lower c.autoBindTags (tags.map lower)).map (·.id)

/-- Folds one delivery into a channel's failure run, and returns the run. -/
def recordDeliveryOutcome (now : Time) (org : OrgId) (id : Uuid) (delivered : Bool) :
    Nat × Db :=
  let due (c : NotificationChannel) : Bool :=
    c.org == org && c.id == id &&
      (!delivered || c.consecutiveFailures != 0 ||
        match c.lastDeliveredAt with
        | none => true
        | some at_ => decide (at_ < now - seconds 3600))
  let write (c : NotificationChannel) : NotificationChannel :=
    if delivered then
      { c with consecutiveFailures := 0, failingSince := none, lastDeliveredAt := some now }
    else
      { c with
        consecutiveFailures := c.consecutiveFailures + 1
        failingSince := c.failingSince.or (some now) }
  let channels := Table.update due write db.settings.channels
  let written := (db.settings.channels.find? due).map write
  ((written.map (·.consecutiveFailures)).getD 0,
    { db with settings := { db.settings with channels := channels } })

/-- Deleting a channel keeps its paging rows, with `channel_id` set to NULL. -/
def deleteChannel (org : OrgId) (id : Uuid) : Db :=
  { db with
    settings := { db.settings with
      channels := db.settings.channels.filter fun c => !(c.org == org && c.id == id) }
    notifications := Table.update (fun n => n.org == org && n.channelId == some id)
      (fun n => { n with channelId := none }) db.notifications }

/-! ## Incidents and their rows -/

def incident (org : OrgId) (id : Uuid) : Option IncidentRow :=
  db.incidents.find? fun i => i.org == org && i.id == id

/-- `OPS_COLS`. -/
def get (org : OrgId) (id : Uuid) : Option OpsIncident :=
  (db.incident org id).map (·.toOpsIncident)

def updateIncident (org : OrgId) (id : Uuid) (f : IncidentRow → IncidentRow) : Db :=
  { db with incidents := Table.update (fun i => i.org == org && i.id == id) f db.incidents }

def insertEvent (now : Time) (org : OrgId) (id : Uuid) (kind : IncidentEventKind)
    (actor : Actor) (message : Option String) : Db :=
  { db with
    nextId := db.nextId + 1
    events := db.events ++ [{
      id := db.nextId, incidentId := id, occurredAt := now, kind := kind
      actorType := actor.actorType, actorId := actor.userId, message := message, org := org }] }

def insertUpdate (now : Time) (org : OrgId) (id : Uuid) (phase : UpdatePhase)
    (message author : String) : Db :=
  { db with updates := db.updates ++ [⟨org, id, phase, message, author, now⟩] }

/-- The rows of one incident's paging log, in order of creation. -/
def notificationsFor (org : OrgId) (id : Uuid) : List IncidentNotification :=
  (db.notifications.filter fun n => n.incidentId == id && n.org == org).map
    (·.toIncidentNotification)

end Db

end Uptimepage
