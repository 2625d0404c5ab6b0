import Uptimepage.Domain.Incident

/-!
# Notification channels and the paging log

`domain/notification_channel` and the `incident_notifications` half of
`domain/incident.rs`.  The transport column of a paging row is the channel's kind,
or one of the four bookkeeping markers the engine writes to itself; the source
keeps it as text, and no kind spells a marker.
-/

namespace Uptimepage

inductive ChannelKind
  | webhook
  | slack
  | telegram
  | telegramApp
  | whatsApp
  | whatsAppApp
  | discord
  | msTeams
  | googleChat
  | email
  | pagerDuty
  | ntfy
  | gotify
  | pushover
  | sms
  | mattermost
deriving DecidableEq

structure NotificationChannel where
  org : OrgId
  id : Uuid
  name : String
  kind : ChannelKind
  enabled : Bool
  verifiedAt : Option Time
  consecutiveFailures : Nat
  failingSince : Option Time
  lastDeliveredAt : Option Time
  autoBindTags : List String
deriving DecidableEq

namespace NotificationChannel

/-- Email delivers only after the address confirms its verification link. -/
def awaitingVerification (c : NotificationChannel) : Bool :=
  c.kind == .email && c.verifiedAt.isNone

end NotificationChannel

/-- The tag rule against tags already folded to lower case by `lower`. -/
def matchesFolded (lower : String → String) (rule foldedTags : List String) : Bool :=
  rule.any fun r => foldedTags.contains (lower r)

inductive Transport
  | channel (kind : ChannelKind)
  | damped
  | released
  | unreachable
  | maintenance
deriving DecidableEq

/-- One paging delivery-log entry. -/
structure IncidentNotification where
  id : Uuid
  incidentId : Uuid
  escalationLevel : Option Int
  targetUserId : Option UserId
  channelId : Option Uuid
  transport : Transport
  reason : NotificationReason
  status : NotificationStatus
  attempt : Int
  error : Option String
  createdAt : Time
  sentAt : Option Time
  nextAttemptAt : Option Time
  providerReceipt : Option String
  ackedAt : Option Time
deriving DecidableEq

/-- A row to persist; the store stamps `id` and `created_at`. -/
structure NewIncidentNotification where
  org : OrgId
  incidentId : Uuid
  escalationLevel : Option Int
  targetUserId : Option UserId
  channelId : Option Uuid
  transport : Transport
  reason : NotificationReason
  status : NotificationStatus
  attempt : Int
  error : Option String
  sentAt : Option Time
deriving DecidableEq

/-- Result of one delivery attempt, applied to its row. -/
structure NotificationOutcome where
  status : NotificationStatus
  attempt : Int
  error : Option String
  sentAt : Option Time
  nextAttemptAt : Option Time
  providerReceipt : Option String
deriving DecidableEq

/-- What a channel is told about an incident. -/
structure IncidentNotice where
  incidentId : Uuid
  reason : NotificationReason
  monitorName : Option String
  title : Option String
  severity : IncidentSeverity
  urgency : IncidentUrgency
  origin : IncidentOrigin
  startedAt : Time
  endedAt : Option Time
  errorSample : Option String
  regionsDown : List String
  regionsUp : List String
  url : Option String
  note : Option String
deriving DecidableEq

end Uptimepage
