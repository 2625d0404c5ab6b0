import Uptimepage.Escalation.Sweep

/-!
# Episodes

`escalation/engine/episode.rs`: opening an episode, its holds and their release, the
all-clear, and the emergency receipts.  `pageWith` holds the incident's page lock from
the first read to the last write; the row that a held alert leaves is what the release
scans key off.
-/

namespace Uptimepage

open Async Job

/-- `u64::div_ceil(60)`. -/
def minutesCeil (secs : Nat) : Nat := (secs + 59) / 60

/-- A bookkeeping row of the engine: no channel, nothing sent. -/
def markerRow (org : OrgId) (incidentId : Uuid) (transport : Transport)
    (reason : NotificationReason) : NewIncidentNotification where
  org := org
  incidentId := incidentId
  escalationLevel := none
  targetUserId := none
  channelId := none
  transport := transport
  reason := reason
  status := .suppressed
  attempt := 0
  error := none
  sentAt := none

/-- Marks that an episode reached no channel. -/
def recordUnreachable (org : OrgId) (incidentId : Uuid) (reason : NotificationReason) :
    Job Unit := do
  let _ ← store (.recordNotification (markerRow org incidentId .unreachable reason))

def holdForMaintenance (org : OrgId) (incidentId : Uuid) (reason : NotificationReason) :
    Job Unit := do
  let _ ← store (.recordNotification (markerRow org incidentId .maintenance reason))
  store (.appendEvent org incidentId .note .system
    (some ("alert held: the monitor is in a maintenance window. It pages " ++
      "when the window ends if this incident is still open")))

/-- The receipt client of a channel: `none` when it is gone or is not Pushover. -/
def pushoverReceipts (org : OrgId) (channelId : Uuid) : Job (Option NotificationChannel) := do
  match ← store (.channel org channelId) with
  | some channel => pure (if channel.kind = .pushover then some channel else none)
  | none => pure none

/-- Retires one emergency page: only once its cancel lands, or when nothing can cancel it. -/
def cancelOne (org : OrgId) (ack : EmergencyAck) : Job Unit := do
  match ← (pushoverReceipts org ack.channelId).attempt with
  | .ok none => ignore (store (.clearReceipt org ack.id))
  | .error _ => pure ()
  | .ok (some _) =>
    match ← await (.cancelReceipt ack.receipt) with
    | .error _ => pure ()
    | .ok () => ignore (store (.clearReceipt org ack.id))

def cancelAll (org : OrgId) : List EmergencyAck → Job Unit
  | [] => pure ()
  | ack :: rest => do
    cancelOne org ack
    cancelAll org rest

/-- Stops every emergency page still repeating for an incident. -/
def cancelEmergency (org : OrgId) (incidentId : Uuid) : Job Unit := do
  match ← (store (.emergencyAcksForIncident org incidentId)).attempt with
  | .error _ => pure ()
  | .ok acks => cancelAll org acks

/-- Every channel that should hear about the monitor: bound first, then rule matches. -/
def pagingChannelIds (org : OrgId) (target : Target) : Job (List Uuid) := do
  let auto ← store (.autoBoundIds org target.tags)
  pure (auto.foldl (fun ids id => if ids.contains id then ids else ids ++ [id])
    target.alerts.channelIds)

def heldReason (org : OrgId) (incidentId : Uuid) : Job NotificationReason := do
  match ← (store (.notificationsFor org incidentId)).attempt with
  | .error _ => pure .opened
  | .ok rows =>
    let held := rows.filter fun n => n.transport == .damped || n.transport == .maintenance
    match held.foldl (fun (best : Option IncidentNotification) n =>
        match best with
        | some b => if n.createdAt < b.createdAt then some b else some n
        | none => some n) none with
    | some n => pure n.reason
    | none => pure .opened

/-- The page's outage ended and another has since started. -/
def episodeMoved (ack : EmergencyAck) : Job Bool := do
  match ← (store (.generation ack.org ack.incidentId)).attempt with
  | .ok (some current) => pure (current != ack.generation)
  | _ => pure false

/-- Nothing is left for this page to acknowledge.  A failed lookup reads as still paging. -/
def pageIsSpent (ack : EmergencyAck) : Job Bool := do
  match ← (store (.get ack.org ack.incidentId)).attempt with
  | .error _ => pure false
  | .ok none => pure true
  | .ok (some incident) =>
    if incident.state ≠ .triggered then pure true
    else do
      let moved ← episodeMoved ack
      if moved then pure true
      else
        match incident.targetId with
        | none => pure false
        | some targetId => do
          match ← (store (.target ack.org targetId)).attempt with
          | .ok (some t) => pure (!t.watched)
          | _ => pure false

namespace Worker

variable (w : Worker)

/-- A lookup failure degrades to steady. -/
def flapState (org : OrgId) (target : Target) : Job FlapState := do
  if w.cfg.flapMaxOpens = 0 then pure .steady
  else do
    let at_ ← now
    match ← (store (.opensSince org target.id
        (at_ - seconds (max w.cfg.flapWindowSecs 1 : Nat)))).attempt with
    | .ok opens => pure (Uptimepage.flapState opens w.cfg.flapMaxOpens)
    | .error _ => pure .steady

def flapNotice : String :=
  "Flapping: " ++ toString w.cfg.flapMaxOpens ++ " failures in " ++
    toString (minutesCeil w.cfg.flapWindowSecs) ++
    "m, further alerts held unless an outage lasts " ++
    toString (minutesCeil w.cfg.flapHoldSecs) ++ "m."

def noteFlapEngaged (org : OrgId) (incidentId : Uuid) (target : Target) : Job Unit :=
  store (.appendEvent org incidentId .notified .system
    (some ("\"" ++ target.name ++ "\" has opened " ++ toString w.cfg.flapMaxOpens ++
      " incidents within " ++ toString (minutesCeil w.cfg.flapWindowSecs) ++
      " minutes — alerts for further opens are held until it settles")))

/-- Holds an open the flap damper caught. -/
def hold (org : OrgId) (incidentId : Uuid) (reason : NotificationReason) : Job Unit := do
  let _ ← store (.recordNotification (markerRow org incidentId .damped reason))
  store (.appendEvent org incidentId .note .system
    (some ("alert held: the monitor is flapping. It pages anyway if this incident is still open in "
      ++ toString (minutesCeil w.cfg.flapHoldSecs) ++ " minutes")))

/-- The first rung of the monitor's policy, paged and armed. -/
def openLadder (org : OrgId) (incident : OpsIncident) (notice : IncidentNotice)
    (reason : NotificationReason) (policyId : Uuid) : Job Unit := do
  match ← store (.policy org policyId) with
  | none => pure ()
  | some policy =>
    match nextStep policy.steps policy.repeatCount 0 0 with
    | .page level _ delaySecs => do
      let at_ ← now
      let targets ← resolveTargets org policy level at_
      noteIfEmpty org incident.id level targets
      let paged ← w.pageChannels org incident.id notice reason level targets ⟨0, 0⟩
      let now ← now
      let _ ← store (.beginEscalation org incident.id policyId level
        (some (now + seconds delaySecs)))
      logPaged org incident.id reason paged.delivered
    | .exhausted => do
      let _ ← store (.beginEscalation org incident.id policyId 0 none)

/-- No policy: the bound channels, with no laddered re-paging. -/
def openFlat (org : OrgId) (incident : OpsIncident) (target : Target) (notice : IncidentNotice)
    (reason : NotificationReason) : Job Unit := do
  let ids ← pagingChannelIds org target
  let paged ← w.pageChannels org incident.id notice reason 0 (channelTargets ids) ⟨0, 0⟩
  logPaged org incident.id reason paged.delivered
  if paged.recorded = 0 then recordUnreachable org incident.id reason else pure ()

/-- Pages the first rung, or the bound channels, of an episode no hold applies to. -/
def openDestination (org : OrgId) (incident : OpsIncident) (target : Target)
    (reason : NotificationReason) (note : Option String) : Job Unit := do
  let notice := w.notice incident target reason note
  match ← store (.resolveForTarget org target.id) with
  | some policyId => w.openLadder org incident notice reason policyId
  | none => w.openFlat org incident target notice reason

/-- The flap damper, then the page.  A release and a declared incident skip the damper. -/
def openDamped (org : OrgId) (incident : OpsIncident) (target : Target)
    (reason : NotificationReason) (damper : Damper) : Job Unit :=
  if damper = .apply ∧ incident.origin ≠ .manual then do
    match ← w.flapState org target with
    | .steady => w.openDestination org incident target reason none
    | .crossing => do
      w.noteFlapEngaged org incident.id target
      w.openDestination org incident target reason (some w.flapNotice)
    | .damped => w.hold org incident.id reason
  else w.openDestination org incident target reason none

/-- A window holds the monitor's alerts; a declared incident is exempt. -/
def maintenanceHolds (org : OrgId) (incident : OpsIncident) (target : Target) : Job Bool :=
  if incident.origin ≠ .manual then alertsSuppressed org target.id else pure false

/-- Pages the first rung and arms escalation; a no-op while the episode is already paged. -/
def openEpisode (org : OrgId) (incident : OpsIncident) (target : Target)
    (reason : NotificationReason) (damper : Damper) : Job Unit := do
  let already ← store (.notificationsFor org incident.id)
  if openEpisodeActive already then pure ()
  -- a release whose monitor recovered since the scan announces nothing
  else if damper = .skip ∧ incident.state ≠ .triggered then pure ()
  else do
    let held ← maintenanceHolds org incident target
    if held then holdForMaintenance org incident.id reason
    else w.openDamped org incident target reason damper

/-- The all-clear to every channel paged this episode that has not already had one. -/
def notifyResolution (org : OrgId) (incident : OpsIncident) (target : Target) : Job Unit := do
  cancelEmergency org incident.id
  if !target.notifyRecovery then pure ()
  else do
    let rows ← store (.notificationsFor org incident.id)
    if (resolvableChannels rows).isEmpty then pure ()
    else do
      let paged ← w.pageChannels org incident.id (w.notice incident target .resolved none) .resolved
        incident.escalationLevel (channelTargets (resolvableChannels rows)) ⟨0, 0⟩
      logPaged org incident.id .resolved paged.delivered

/-- What a signal does once its incident and monitor are read. -/
def pageTarget (org : OrgId) (incident : OpsIncident) (target : Target)
    (reason : NotificationReason) (damper : Damper) : Job Unit :=
  if !target.watched && reason != .resolved then pure ()
  else
    match reason with
    | .opened => w.openEpisode org incident target reason damper
    | .reopened => do
      cancelEmergency org incident.id
      w.openEpisode org incident target reason damper
    | .resolved => w.notifyResolution org incident target
    | .escalated | .reminder | .noData | .dataResumed => pure ()

/-- Handles a lifecycle signal under the incident's page lock. -/
def pageWith (org : OrgId) (incidentId : Uuid) (reason : NotificationReason) (damper : Damper) :
    Job Unit := locked incidentId do
  match ← store (.get org incidentId) with
  | none => pure ()
  | some incident =>
    match incident.targetId with
    | none => pure ()
    | some targetId =>
      match ← store (.target org targetId) with
      | none => pure ()
      | some target => w.pageTarget org incident target reason damper

def page (org : OrgId) (incidentId : Uuid) (reason : NotificationReason) : Job Unit :=
  w.pageWith org incidentId reason .apply

/-- Releases one held alert.  When the attempt recorded nothing, a marker closes the
scan's predicate. -/
def releaseOne (d : DueIncident) : Job Unit := do
  let before ← store (.notificationsFor d.org d.id)
  let reason ← heldReason d.org d.id
  w.pageWith d.org d.id reason .skip
  let after ← store (.notificationsFor d.org d.id)
  if after.any fun n => !(before.map (·.id)).contains n.id then pure ()
  else do
    let _ ← store (.recordNotification (markerRow d.org d.id .released reason))

end Worker

def markAckedNow (ack : EmergencyAck) : Job Unit := do
  let at_ ← now
  ignore (store (.markAcked ack.org ack.id at_))

/-- The acknowledgement of a page, pinned to the episode the page was sent in. -/
def pinnedAck (ack : EmergencyAck) : Job LifecycleOutcome := do
  let began ← begin
  store (.acknowledge began ack.org ack.incidentId .link (some "Acknowledged in Pushover")
    (some ack.generation))

/-- Records an acknowledgement; only a store error leaves it for the next sweep. -/
def recordAck (ack : EmergencyAck) : Job Unit := do
  match ← (pinnedAck ack).attempt with
  | .ok (.updated _) => do
    markAckedNow ack
    cancelEmergency ack.org ack.incidentId
  | .ok _ => markAckedNow ack
  | .error _ => pure ()

/-- Cancels a spent page; its receipt goes only once the cancel lands. -/
def retireReceipt (ack : EmergencyAck) : Job Unit := do
  match ← await (.cancelReceipt ack.receipt) with
  | .error _ => pure ()
  | .ok () => ignore (store (.clearReceipt ack.org ack.id))

/-- Polls one emergency receipt and records what it says. -/
def pollOneAck (ack : EmergencyAck) : Job Unit := do
  match ← (pushoverReceipts ack.org ack.channelId).attempt with
  | .error _ => pure ()
  | .ok none => ignore (store (.clearReceipt ack.org ack.id))
  | .ok (some _) =>
    match ← await (.pollReceipt ack.receipt) with
    | .error _ => pure ()
    | .ok state =>
      if state.acknowledged then recordAck ack
      else if state.expired then ignore (store (.clearReceipt ack.org ack.id))
      else do
        let spent ← pageIsSpent ack
        if spent then retireReceipt ack else pure ()

end Uptimepage
