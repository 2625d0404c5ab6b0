import Uptimepage.Escalation.Machine

/-!
# Composing and delivering one page

`escalation/engine/deliver.rs`: the notice, the acknowledge link, one delivery attempt,
and the channels a policy rung resolves to.
-/

namespace Uptimepage

open Async Job

/-- What the paging core is configured with.  `redactSecrets` strips the URLs of a
transport error before it is stored. -/
structure Worker where
  cfg : EscalationConfig
  baseUrl : String
  incidentAckSecret : String
  redactSecrets : String → String

namespace Worker

variable (w : Worker)

def deepLink (id : Uuid) : Option String :=
  let base := trimEndSlashes w.baseUrl
  if base = "" then none else some (base ++ "/incidents/" ++ toString id)

def notice (inc : OpsIncident) (target : Target) (reason : NotificationReason)
    (note : Option String) : IncidentNotice where
  incidentId := inc.id
  reason := reason
  monitorName := some target.name
  title := inc.title
  severity := inc.severity
  urgency := inc.urgency
  origin := inc.origin
  startedAt := inc.startedAt
  endedAt := inc.endedAt
  errorSample := inc.errorSample
  regionsDown := inc.regionsDown
  regionsUp := inc.regionsUp
  url := w.deepLink inc.id
  note := note

/-- The episode the page's acknowledge link is pinned to; only ntfy renders the button. -/
def pushAck (org : OrgId) (channel : NotificationChannel) (notice : IncidentNotice) :
    Job (Option Nat) :=
  if channel.kind ≠ .ntfy ∨ notice.reason = .resolved ∨ w.baseUrl = "" ∨
      w.incidentAckSecret = "" then
    pure none
  else do
    match ← (store (.generation org notice.incidentId)).attempt with
    | .ok (some generation) =>
      pure (if trimEndSlashes w.baseUrl = "" then none else some generation)
    | _ => pure none

/-- One delivery attempt: status, stored error and provider receipt. -/
def deliver (org : OrgId) (channel : NotificationChannel) (notice : IncidentNotice)
    (notificationId : Uuid) (attempt : Int) :
    Job (NotificationStatus × Option String × Option String) := do
  let ack ← w.pushAck org channel notice
  match ← await (.notify channel notice notificationId attempt ack) with
  | .ok receipt => pure (.sent, none, receipt)
  | .error err => pure (.failed, some (w.redactSecrets err), none)

/-- The incident, monitor and channel of a retry, re-resolved; `none` when any is gone. -/
def rebuildNotice (org : OrgId) (incidentId channelId : Uuid) (reason : NotificationReason) :
    Job (Option (IncidentNotice × NotificationChannel × IncidentState)) := do
  match ← store (.get org incidentId) with
  | none => pure none
  | some incident =>
    match incident.targetId with
    | none => pure none
    | some targetId =>
      match ← store (.target org targetId) with
      | none => pure none
      | some target =>
        match ← store (.channel org channelId) with
        | none => pure none
        | some channel =>
          pure (some (w.notice incident target reason none, channel, incident.state))

end Worker

/-! ## Rungs -/

/-- A schedule's current roster, from the cache when it is there; an empty roster is not
cached. -/
def resolveOnCall (org : OrgId) (scheduleId : Uuid) (at_ : Time) : Job (List UserId) := do
  match ← await (.cachedRoster org scheduleId) with
  | some users => pure users
  | none =>
    let users ← store (.resolveNow org scheduleId at_)
    if users.isEmpty then pure users
    else do
      await (.cacheRoster org scheduleId users)
      pure users

/-- Appends a responder's contact channels, attributed to the user. -/
def pageUser (org : OrgId) (user : UserId) (out : List PageTarget) : Job (List PageTarget) := do
  let contacts ← store (.contactsForUser org user)
  pure (contacts.foldl (fun out cid => pushTarget out cid (some user)) out)

def pageUsers (org : OrgId) : List UserId → List PageTarget → Job (List PageTarget)
  | [], out => pure out
  | user :: rest, out => do
    let out ← pageUser org user out
    pageUsers org rest out

def resolveTarget (org : OrgId) (at_ : Time) (t : EscalationTarget) (out : List PageTarget) :
    Job (List PageTarget) :=
  match t.targetType with
  | .channel =>
    match t.channelId with
    | some cid => pure (pushTarget out cid none)
    | none => pure out
  | .user =>
    match t.userId with
    | some uid => pageUser org uid out
    | none => pure out
  | .schedule =>
    match t.scheduleId with
    | some sid => do
      let users ← resolveOnCall org sid at_
      pageUsers org users out
    | none => pure out

def resolveTargetList (org : OrgId) (at_ : Time) :
    List EscalationTarget → List PageTarget → Job (List PageTarget)
  | [], out => pure out
  | t :: rest, out => do
    let out ← resolveTarget org at_ t out
    resolveTargetList org at_ rest out

/-- The concrete channels a policy rung pages. -/
def resolveTargets (org : OrgId) (policy : EscalationPolicy) (level : Int) (at_ : Time) :
    Job (List PageTarget) :=
  match policy.steps.find? fun s => s.level == level with
  | none => pure []
  | some step => resolveTargetList org at_ step.targets []

end Uptimepage
