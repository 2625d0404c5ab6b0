import Uptimepage.Escalation.Deliver

/-!
# Paging channels and the sweep's items

`escalation/engine/sweep.rs`: `pageChannels`, which records a row before it sends and
marks it after, and what the sweep does with one due rung, one reminder and one pending
page.  Neither `escalateOne` nor `retryOne` takes the incident's page lock.
-/

namespace Uptimepage

open Async Job

/-- How long a quiet monitor's escalation timer parks. -/
def suppressedEscalationRetrySecs : Int := 60

/-- A lookup failure reads as no maintenance, so an error never silences a page. -/
def alertsSuppressed (org : OrgId) (targetId : Uuid) : Job Bool := do
  match ← (store (.alertsSuppressed org targetId)).attempt with
  | .ok suppressed => pure suppressed
  | .error _ => pure false

def notePaged (org : OrgId) (incidentId : Uuid) (reason : NotificationReason) (paged : Nat) :
    Job Unit :=
  store (.appendEvent org incidentId
    (if reason = .escalated then .escalated else .notified) .system
    (some ("paged " ++ toString paged ++ " channel(s): " ++ reason.asDbStr)))

def logPaged (org : OrgId) (incidentId : Uuid) (reason : NotificationReason) (paged : Nat) :
    Job Unit :=
  if paged = 0 then pure () else notePaged org incidentId reason paged

/-- Records on the timeline that a policy rung reached no channel. -/
def noteEmptyRung (org : OrgId) (incidentId : Uuid) (level : Int) : Job Unit :=
  store (.appendEvent org incidentId .escalated .system
    (some ("escalation level " ++ toString level ++
      " reached no channel — check the policy's targets")))

def noteIfEmpty (org : OrgId) (incidentId : Uuid) (level : Int) (targets : List PageTarget) :
    Job Unit :=
  if targets.isEmpty then noteEmptyRung org incidentId level else pure ()

def bumpRenotify (org : OrgId) (incidentId : Uuid) : Job Unit :=
  store (.bumpRenotifyCount org incidentId)

/-- A reminder that reached a channel widens the gap before the next one. -/
def bumpIfPaged (org : OrgId) (incidentId : Uuid) (recorded : Nat) : Job Unit :=
  if 0 < recorded then bumpRenotify org incidentId else pure ()

def queuedRow (org : OrgId) (incidentId : Uuid) (reason : NotificationReason) (level : Int)
    (t : PageTarget) (channel : NotificationChannel) : NewIncidentNotification where
  org := org
  incidentId := incidentId
  escalationLevel := some level
  targetUserId := t.userId
  channelId := some t.channelId
  transport := .channel channel.kind
  reason := reason
  status := .queued
  attempt := 1
  error := none
  sentAt := none

namespace Worker

variable (w : Worker)

/-- Time of the next retry after `attempt` failed, with up to half as much jitter. -/
def retryBackoff (attempt : Int) : Job (Option Time) :=
  match retryDelaySecs attempt w.cfg.retryBackoffBaseSecs w.cfg.retryBackoffCapSecs
      w.cfg.maxAttempts with
  | none => pure none
  | some secs => do
    let jitter : Nat ← await (.jitter (secs / 2 + 1))
    let at_ ← now
    pure (some (at_ + seconds (secs + jitter)))

/-- The backoff raised to the transport's own hint. -/
def retryBackoffHinted (attempt : Int) (error : Option String) : Job (Option Time) := do
  match ← w.retryBackoff attempt with
  | none => pure none
  | some at_ =>
    match retryAfterHint error with
    | none => pure (some at_)
    | some wait => do
      let now ← now
      pure (some (max at_ (now + wait)))

/-- Folds a finished delivery into the channel's failure run. -/
def recordChannelHealth (org : OrgId) (channel : NotificationChannel)
    (status : NotificationStatus) (nextAttemptAt : Option Time) : Job Unit :=
  if channel.awaitingVerification then pure ()
  else
    match status, nextAttemptAt with
    | .sent, _ => ignore (store (.recordDeliveryOutcome org channel.id true))
    | .failed, none => ignore (store (.recordDeliveryOutcome org channel.id false))
    | _, _ => pure ()

/-- An unverified address is not sent to; its row records the failure. -/
def deliverVerified (org : OrgId) (channel : NotificationChannel) (notice : IncidentNotice)
    (id : Uuid) (attempt : Int) : Job (NotificationStatus × Option String × Option String) :=
  if channel.awaitingVerification then
    pure (.failed, some "email address not verified", none)
  else w.deliver org channel notice id attempt

/-- When a failed attempt is tried again. -/
def nextAttempt (status : NotificationStatus) (attempt : Int) (error : Option String) :
    Job (Option Time) :=
  if status = .failed then w.retryBackoffHinted attempt error else pure none

/-- `(status == Sent).then(Utc::now)`. -/
def sentStamp (status : NotificationStatus) : Job (Option Time) :=
  if status = .sent then do
    let at_ ← now
    pure (some at_)
  else pure none

/-- Sends one recorded row, as attempt `attempt`, and marks it with the outcome. -/
def sendAndMark (org : OrgId) (channel : NotificationChannel) (notice : IncidentNotice)
    (id : Uuid) (attempt : Int) : Job NotificationStatus := do
  let r ← w.deliverVerified org channel notice id attempt
  let nextAttemptAt ← w.nextAttempt r.1 attempt r.2.1
  recordChannelHealth org channel r.1 nextAttemptAt
  let sentAt ← sentStamp r.1
  store (.markNotification org id ⟨r.1, attempt, r.2.1, sentAt, nextAttemptAt, r.2.2⟩)
  pure r.1

/-- Delivers `reason` to each target that exists and is enabled, recording a `queued` row
before the send. -/
def pageChannels (org : OrgId) (incidentId : Uuid) (notice : IncidentNotice)
    (reason : NotificationReason) (level : Int) : List PageTarget → Paged → Job Paged
  | [], paged => pure paged
  | t :: rest, paged => do
    match ← store (.channel org t.channelId) with
    | none => pageChannels org incidentId notice reason level rest paged
    | some channel =>
      if !channel.enabled then pageChannels org incidentId notice reason level rest paged
      else do
        let id ← store (.recordNotification (queuedRow org incidentId reason level t channel))
        let status ← w.sendAndMark org channel notice id 1
        pageChannels org incidentId notice reason level rest
          ⟨paged.recorded + 1, if status = .sent then paged.delivered + 1 else paged.delivered⟩

/-- Clears the timer of a claim that has nothing to page. -/
def disarm (d : DueIncident) : Job Unit := do
  let _ ← store (.recordEscalation d.org d.id d.escalationLevel d.escalationRound none)

/-- Pushes the timer of a quiet monitor out, rather than clearing it. -/
def park (d : DueIncident) : Job Unit := do
  let at_ ← now
  let _ ← store (.recordEscalation d.org d.id d.escalationLevel d.escalationRound
    (some (at_ + seconds suppressedEscalationRetrySecs)))

/-- Disabled, or inside a suppressing window.  The plan hold is not looked at here. -/
def escalationQuiet (org : OrgId) (target : Target) : Job Bool :=
  if !target.enabled then pure true else alertsSuppressed org target.id

/-- Pages one rung and re-arms the timer. -/
def pageRung (d : DueIncident) (notice : IncidentNotice) (policy : EscalationPolicy)
    (level round delaySecs : Int) : Job Unit := do
  let at_ ← now
  let targets ← resolveTargets d.org policy level at_
  noteIfEmpty d.org d.id level targets
  let paged ← w.pageChannels d.org d.id notice .escalated level targets ⟨0, 0⟩
  let now ← now
  let _ ← store (.recordEscalation d.org d.id level round (some (now + seconds delaySecs)))
  logPaged d.org d.id .escalated paged.delivered

/-- Walks the next rung of one claimed incident.  The incident is read again, but its state
is not looked at. -/
def escalateOne (d : DueIncident) : Job Unit :=
  match d.escalationPolicyId with
  | none => disarm d
  | some policyId => do
    match ← store (.policy d.org policyId) with
    | none => disarm d
    | some policy =>
      match nextStep policy.steps policy.repeatCount d.escalationLevel d.escalationRound with
      | .exhausted => do
        disarm d
        store (.appendEvent d.org d.id .escalated .system (some "escalation policy exhausted"))
      | .page level round delaySecs => do
        match ← store (.get d.org d.id) with
        | none => pure ()
        | some incident =>
          match incident.targetId with
          | none => pure ()
          | some targetId => do
            match ← store (.target d.org targetId) with
            | none => pure ()
            | some target => do
              let quiet ← escalationQuiet d.org target
              if quiet then park d
              else
                w.pageRung d (w.notice incident target .escalated none) policy level round
                  delaySecs

/-- A reminder to the channels that are still owed an all-clear. -/
def remind (d : DueIncident) (incident : OpsIncident) (target : Target) : Job Unit := do
  let rows ← store (.notificationsFor d.org d.id)
  if (resolvableChannels rows).isEmpty then pure ()
  else do
    let paged ← w.pageChannels d.org d.id (w.notice incident target .reminder none) .reminder
      incident.escalationLevel (channelTargets (resolvableChannels rows)) ⟨0, 0⟩
    bumpIfPaged d.org d.id paged.recorded
    logPaged d.org d.id .reminder paged.delivered

/-- Re-pages the channels already notified this episode, under the incident's lock. -/
def renotifyOne (d : DueIncident) : Job Unit := locked d.id do
  match ← store (.get d.org d.id) with
  | none => pure ()
  | some incident =>
    if incident.state ≠ .triggered then pure ()
    else
      match incident.targetId with
      | none => pure ()
      | some targetId => do
        match ← store (.target d.org targetId) with
        | none => pure ()
        | some target =>
          if !target.enabled || target.renotifyIntervalSecs == 0 then pure ()
          else do
            let quiet ← alertsSuppressed d.org targetId
            if quiet then pure () else w.remind d incident target

/-- Why a retry is dropped instead of sent. -/
def retrySuppressed (channel : NotificationChannel) (reason : NotificationReason)
    (state : IncidentState) : Option String :=
  if !channel.enabled then some "channel was turned off before the retry landed"
  else if reasonIsStale reason state then some "incident state moved on before the retry landed"
  else none

/-- What a retry has to send; `none` when the row has lost its channel. -/
def rebuildFor (p : PendingNotification) :
    Job (Option (IncidentNotice × NotificationChannel × IncidentState)) :=
  match p.channelId with
  | some cid => w.rebuildNotice p.org p.incidentId cid p.reason
  | none => pure none

/-- Re-attempts one queued or failed page on its own row. -/
def retryOne (p : PendingNotification) : Job Unit := do
  match ← w.rebuildFor p with
  | none => do
    let nextAttemptAt ← w.retryBackoff (p.attempt + 1)
    store (.markNotification p.org p.id ⟨.failed, p.attempt + 1,
      some "channel, monitor or incident no longer exists", none, nextAttemptAt, none⟩)
  | some (notice, channel, state) =>
    match retrySuppressed channel p.reason state with
    | some reason =>
      store (.markNotification p.org p.id
        ⟨.suppressed, p.attempt + 1, some reason, none, none, none⟩)
    | none => do
      let _ ← w.sendAndMark p.org channel notice p.id (p.attempt + 1)

end Worker

end Uptimepage
