import Mathlib.Algebra.Group.Nat.Defs
import Mathlib.Data.List.Basic

/-!
# The incident model

Rows, enumerations and the pure state machine of `domain/incident.rs`, with the
paging log (`incident_notifications`) and the acting party (`Actor`).
-/

namespace Uptimepage

abbrev Uuid := Nat
abbrev OrgId := Nat
abbrev UserId := Nat
abbrev Time := Int

/-- `chrono::Duration::seconds`. -/
def seconds (n : Int) : Int := n * 1000000

inductive IncidentState
  | triggered
  | acknowledged
  | resolved
deriving DecidableEq

inductive IncidentSeverity
  | minor
  | major
  | critical
deriving DecidableEq

inductive IncidentUrgency
  | high
  | low
deriving DecidableEq

inductive IncidentOrigin
  | monitor
  | manual
deriving DecidableEq

/-- `onStatusPage` is the source's `Public`. -/
inductive IncidentVisibility
  | internal
  | onStatusPage
deriving DecidableEq

inductive ActorType
  | system
  | user
  | mcp
  | link
deriving DecidableEq

/-- Who is performing an action.  A `link` carries no user: holding the
notification is the whole proof. -/
inductive Actor
  | system
  | user (id : UserId)
  | mcp (id : UserId)
  | link
deriving DecidableEq

namespace Actor

def actorType : Actor → ActorType
  | system => .system
  | user _ => .user
  | mcp _ => .mcp
  | link => .link

def userId : Actor → Option UserId
  | system | link => none
  | user u | mcp u => some u

end Actor

inductive IncidentEventKind
  | triggered
  | acknowledged
  | assigned
  | unassigned
  | escalated
  | notified
  | note
  | severityChanged
  | downtimeChanged
  | stateChanged
  | resolved
  | reopened
  | published
  | unpublished
  | postmortemPublished
  | postmortemUnpublished
deriving DecidableEq

inductive NotificationStatus
  | queued
  | sent
  | failed
  | suppressed
deriving DecidableEq

inductive NotificationReason
  | opened
  | escalated
  | resolved
  | reopened
  | noData
  | dataResumed
  | reminder
deriving DecidableEq

def NotificationReason.asDbStr : NotificationReason → String
  | opened => "opened"
  | escalated => "escalated"
  | resolved => "resolved"
  | reopened => "reopened"
  | noData => "no_data"
  | dataResumed => "data_resumed"
  | reminder => "reminder"

/-- Internal operational projection of an `incidents` row. -/
structure OpsIncident where
  id : Uuid
  targetId : Option Uuid
  title : Option String
  state : IncidentState
  severity : IncidentSeverity
  urgency : IncidentUrgency
  origin : IncidentOrigin
  visibility : IncidentVisibility
  pagingEnabled : Bool
  countsAsDowntime : Bool
  startedAt : Time
  endedAt : Option Time
  acknowledgedAt : Option Time
  acknowledgedBy : Option UserId
  assignedTo : Option UserId
  resolvedBy : Option UserId
  escalationPolicyId : Option Uuid
  escalationLevel : Int
  escalationRound : Int
  nextEscalationAt : Option Time
  checkCount : Nat
  errorSample : Option String
  regionsDown : List String
  regionsUp : List String
  createdAt : Time
  updatedAt : Time
deriving DecidableEq

structure NewManualIncident where
  title : Option String
  severity : IncidentSeverity
  urgency : IncidentUrgency
  targetId : Option Uuid
  visibility : IncidentVisibility
  notify : Bool
  countsAsDowntime : Bool
deriving DecidableEq

structure IncidentEvent where
  id : Uuid
  incidentId : Uuid
  occurredAt : Time
  kind : IncidentEventKind
  actorType : ActorType
  actorId : Option UserId
  message : Option String
deriving DecidableEq

/-! ## The state machine -/

inductive IncidentTransition
  | acknowledge
  | resolve
  | autoResolve
  | reopen
deriving DecidableEq

/-- An illegal transition for the incident's current state. -/
structure TransitionError where
  current : IncidentState
  transition : IncidentTransition
deriving DecidableEq

/-- Pure state-machine step. -/
def nextState (current : IncidentState) (transition : IncidentTransition) :
    Except TransitionError IncidentState :=
  match current, transition with
  -- only an open incident; idempotent while acknowledged
  | .triggered, .acknowledge | .acknowledged, .acknowledge => .ok .acknowledged
  | .resolved, .acknowledge => .error ⟨current, transition⟩
  -- from any open state; idempotent if resolved
  | _, .resolve | _, .autoResolve => .ok .resolved
  -- only a resolved incident returns to triggered
  | .resolved, .reopen => .ok .triggered
  | .triggered, .reopen | .acknowledged, .reopen => .error ⟨current, transition⟩

/-- Distinguishes a missing incident from an illegal transition, and an answer to
a page of an episode the incident has already left. -/
inductive LifecycleOutcome
  | updated (incident : OpsIncident)
  | notFound
  | illegalTransition (err : TransitionError)
  | stale
deriving DecidableEq

end Uptimepage
