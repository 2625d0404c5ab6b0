import Uptimepage.Escalation.Engine

/-!
# One proof per function

Most of what is asked of the engine's code is asked of all of it: that it stays inside a
footprint, that it keeps an assertion.  A `QuietLogic` is a property of jobs that pure
code, reads and local calls have and sequencing keeps; a `RestLogic` is one that the
bookkeeping of an incident's paging has too, and a `PageLogic` one that its page lock keeps.
Each function of the engine is gone through once, for every such property (`CanPage`).
-/

namespace Uptimepage

open Async Async.Fallible Job

/-! ## Answers -/

/-- A row looked up by its key carries the key. -/
def StoreOp.Honest : (o : StoreOp) → o.Ret → Prop
  | .get _ id, r => ∀ inc : OpsIncident, r = some inc → inc.id = id
  | .target org id, r => ∀ t : Target, r = some t → t.org = org ∧ t.id = id
  | .channel org id, r => ∀ c : NotificationChannel, r = some c → c.org = org ∧ c.id = id
  | _, _ => True

def Op.Honest : (o : Op) → o.Res → Prop
  | .store o, r => okSat o.Honest r
  | _, _ => True

theorem Db.exec_honest (lower : String → String) (now : Time) (o : StoreOp) (db : Db) :
    okSat o.Honest (db.exec lower now o).1 := by
  cases o with
  | get org id =>
    intro inc h
    obtain ⟨i, hi, rfl⟩ := Option.map_eq_some_iff.mp h
    have hkey := List.find?_some hi
    simp only [Bool.and_eq_true, beq_iff_eq] at hkey
    exact hkey.2
  | target org id =>
    intro t h
    simpa using List.find?_some h
  | channel org id =>
    intro c h
    simpa using List.find?_some h
  | _ => exact (by unfold okSat; split <;> trivial)

theorem Sys.call_honest {lower : String → String} {me : Nat} {o : Op} {c : Choice} {s s' : Sys}
    {r : o.Res} (h : Sys.call lower me o c s = some (r, s')) : o.Honest r := by
  cases o with
  | store o =>
    simp only [Sys.call] at h
    split at h
    · cases h
      trivial
    · cases h
      exact Db.exec_honest lower _ o s.db
  | _ => trivial

/-! ## Resting calls -/

/-- Operations that only read. -/
def StoreOp.reads : StoreOp → Bool
  | .get .. | .generation .. | .notificationsFor .. | .pendingNotifications ..
  | .dueEmergencyAcks .. | .emergencyAcksForIncident .. | .dueForReconcile ..
  | .dueForRenotify .. | .dueForMaintenanceRelease .. | .dueForFlapRelease .. | .opensSince ..
  | .target .. | .channel .. | .autoBoundIds .. | .resolveForTarget .. | .policy ..
  | .contactsForUser .. | .resolveNow .. | .alertsSuppressed .. => true
  | _ => false

/-- Calls that touch neither the database nor a page lock, and send nothing to a
responder. -/
def Op.isLocal : Op → Bool
  | .now | .jitter _ | .cancelReceipt _ | .pollReceipt _ | .cachedRoster .. | .cacheRoster ..
  | .begin => true
  | _ => false

/-- Timeline kinds the engine writes. -/
def IncidentEventKind.byEngine : IncidentEventKind → Bool
  | .notified | .escalated | .note => true
  | _ => false

inductive QuietCall (org : OrgId) : Op → Prop
  | read {o : StoreOp} : o.reads = true → QuietCall org (.store o)
  | own {o : Op} : o.isLocal = true → QuietCall org o
  | clear {id : Uuid} : QuietCall org (.store (.clearReceipt org id))

/-- The calls of paging code for incident `k` outside of a round of paging. -/
inductive RestCall (org : OrgId) (k : Uuid) : Op → Prop
  | quiet {o : Op} : QuietCall org o → RestCall org k o
  | marker {transport : Transport} {reason : NotificationReason} :
      RestCall org k (.store (.recordNotification (markerRow org k transport reason)))
  | event {kind : IncidentEventKind} {actor : Actor} {message : Option String} :
      kind.byEngine = true → RestCall org k (.store (.appendEvent org k kind actor message))
  | arm {policyId : Uuid} {level : Int} {nextAt : Option Time} :
      RestCall org k (.store (.beginEscalation org k policyId level nextAt))
  | rearm {level round : Int} {nextAt : Option Time} :
      RestCall org k (.store (.recordEscalation org k level round nextAt))
  | bump : RestCall org k (.store (.bumpRenotifyCount org k))

/-! ## Logics -/

structure QuietLogic (org : OrgId) where
  /-- The job has the property, and what it returns satisfies the predicate. -/
  Holds : {α : Type} → (α → Prop) → Job α → Prop
  pure : ∀ {α : Type} {Q : α → Prop} {a : α}, Q a → Holds Q (pure a)
  bind : ∀ {α β : Type} {Q : α → Prop} {Q' : β → Prop} {x : Job α} {f : α → Job β},
    Holds Q x → (∀ a, Q a → Holds Q' (f a)) → Holds Q' (x >>= f)
  attempt : ∀ {α : Type} {Q : α → Prop} {x : Job α}, Holds Q x → Holds (okSat Q) x.attempt
  weaken : ∀ {α : Type} {Q Q' : α → Prop} {x : Job α}, Holds Q x → (∀ a, Q a → Q' a) → Holds Q' x
  store : ∀ {o : StoreOp}, QuietCall org (.store o) → Holds o.Honest (store o)
  await : ∀ {o : Op}, QuietCall org o → Holds (fun _ => True) (await o)

structure RestLogic (org : OrgId) (k : Uuid) extends QuietLogic org where
  rest : ∀ {o : StoreOp}, RestCall org k (.store o) → Holds o.Honest (Job.store o)

structure PageLogic (org : OrgId) (k : Uuid) extends RestLogic org k where
  locked : ∀ {α : Type} {Q : α → Prop} {x : Job α}, Holds Q x → Holds Q (locked k x)

namespace QuietLogic

variable {org : OrgId} (L : QuietLogic org) {α β : Type}

/-- The job has the property, whatever it returns. -/
def Runs (x : Job α) : Prop := L.Holds (fun _ => True) x

variable {L}

theorem runs_pure {a : α} : L.Runs (Pure.pure a : Job α) := L.pure trivial

theorem runs_bind {x : Job α} {f : α → Job β} (hx : L.Runs x) (hf : ∀ a, L.Runs (f a)) :
    L.Runs (x >>= f) :=
  L.bind hx fun a _ => hf a

theorem runs_read {o : StoreOp} {f : o.Ret → Job β} (h : o.reads = true)
    (hf : ∀ a, o.Honest a → L.Runs (f a)) : L.Runs (Job.store o >>= f) :=
  L.bind (L.store (.read h)) hf

theorem runs_await {o : Op} (h : o.isLocal = true) : L.Runs (Job.await o) := L.await (.own h)

theorem runs_attempt {x : Job α} (hx : L.Runs x) : L.Runs x.attempt :=
  L.weaken (L.attempt hx) fun _ _ => trivial

theorem runs_try {o : StoreOp} {f : Except StoreError o.Ret → Job β} (h : o.reads = true)
    (hf : ∀ r, L.Runs (f r)) : L.Runs ((Job.store o).attempt >>= f) :=
  L.bind (L.attempt (L.store (.read h))) fun r _ => hf r

theorem runs_ignore {x : Job α} (hx : L.Runs x) : L.Runs (ignore x) :=
  runs_bind (runs_attempt hx) fun _ => runs_pure

theorem runs_now : L.Runs now := runs_await rfl

end QuietLogic

open QuietLogic

/-! ## Reading and composing -/

section
variable {org : OrgId} {L : QuietLogic org} (w : Worker)

theorem pushAck_runs (channel : NotificationChannel) (notice : IncidentNotice) :
    L.Runs (w.pushAck org channel notice) := by
  unfold Worker.pushAck
  split
  · exact runs_pure
  · refine runs_try rfl fun r => ?_
    split <;> exact runs_pure

theorem retryBackoff_runs (attempt : Int) : L.Runs (w.retryBackoff attempt) := by
  unfold Worker.retryBackoff
  split
  · exact runs_pure
  · refine runs_bind (runs_await rfl) fun j => ?_
    exact runs_bind runs_now fun t => runs_pure

theorem nextAttempt_runs (status : NotificationStatus) (attempt : Int) (error : Option String) :
    L.Runs (w.nextAttempt status attempt error) := by
  unfold Worker.nextAttempt
  split
  · refine runs_bind (retryBackoff_runs w attempt) fun r => ?_
    split
    · exact runs_pure
    · split
      · exact runs_pure
      · exact runs_bind runs_now fun t => runs_pure
  · exact runs_pure

theorem sentStamp_runs (status : NotificationStatus) : L.Runs (Worker.sentStamp status) := by
  unfold Worker.sentStamp
  split
  · exact runs_bind runs_now fun _ => runs_pure
  · exact runs_pure

/-- What a rebuilt notice is about. -/
def Rebuilt (org : OrgId) (incidentId : Uuid) (reason : NotificationReason) :
    Option (IncidentNotice × NotificationChannel × IncidentState) → Prop
  | none => True
  | some (notice, channel, _) =>
    channel.org = org ∧ notice.incidentId = incidentId ∧ notice.reason = reason

theorem rebuildNotice_holds (incidentId channelId : Uuid) (reason : NotificationReason) :
    L.Holds (Rebuilt org incidentId reason) (w.rebuildNotice org incidentId channelId reason) := by
  refine L.bind (L.store (.read rfl)) fun r hr => ?_
  split
  · exact L.pure trivial
  · next incident =>
    split
    · exact L.pure trivial
    · refine L.bind (L.store (.read rfl)) fun r _ => ?_
      split
      · exact L.pure trivial
      · refine L.bind (L.store (.read rfl)) fun r hc => ?_
        split
        · exact L.pure trivial
        · next channel => exact L.pure ⟨(hc channel rfl).1, hr incident rfl, rfl⟩

theorem resolveOnCall_runs (scheduleId : Uuid) (at_ : Time) :
    L.Runs (resolveOnCall org scheduleId at_) := by
  refine runs_bind (runs_await rfl) fun r => ?_
  split
  · exact runs_pure
  · refine runs_read rfl fun users _ => ?_
    split
    · exact runs_pure
    · exact runs_bind (runs_await rfl) fun _ => runs_pure

theorem pageUser_runs (user : UserId) (out : List PageTarget) : L.Runs (pageUser org user out) :=
  runs_read rfl fun _ _ => runs_pure

theorem pageUsers_runs : ∀ (users : List UserId) (out : List PageTarget),
    L.Runs (pageUsers org users out)
  | [], _ => runs_pure
  | user :: rest, out => runs_bind (pageUser_runs user out) (pageUsers_runs rest)

theorem resolveTarget_runs (at_ : Time) (t : EscalationTarget) (out : List PageTarget) :
    L.Runs (resolveTarget org at_ t out) := by
  unfold resolveTarget
  split
  · split <;> exact runs_pure
  · split
    · exact pageUser_runs _ out
    · exact runs_pure
  · split
    · exact runs_bind (resolveOnCall_runs _ at_) fun users => pageUsers_runs users out
    · exact runs_pure

theorem resolveTargetList_runs (at_ : Time) : ∀ (ts : List EscalationTarget)
    (out : List PageTarget), L.Runs (resolveTargetList org at_ ts out)
  | [], _ => runs_pure
  | t :: rest, out => runs_bind (resolveTarget_runs at_ t out) (resolveTargetList_runs at_ rest)

theorem resolveTargets_runs (policy : EscalationPolicy) (level : Int) (at_ : Time) :
    L.Runs (resolveTargets org policy level at_) := by
  unfold resolveTargets
  split
  · exact runs_pure
  · exact resolveTargetList_runs at_ _ []

theorem alertsSuppressed_runs (targetId : Uuid) : L.Runs (alertsSuppressed org targetId) := by
  refine runs_try rfl fun r => ?_
  split <;> exact runs_pure

theorem maintenanceHolds_runs (incident : OpsIncident) (target : Target) :
    L.Runs (Worker.maintenanceHolds org incident target) := by
  unfold Worker.maintenanceHolds
  split
  · exact alertsSuppressed_runs _
  · exact runs_pure

theorem escalationQuiet_runs (target : Target) : L.Runs (Worker.escalationQuiet org target) := by
  unfold Worker.escalationQuiet
  split
  · exact runs_pure
  · exact alertsSuppressed_runs target.id

theorem pagingChannelIds_runs (target : Target) : L.Runs (pagingChannelIds org target) :=
  runs_read rfl fun _ _ => runs_pure

theorem flapState_runs (target : Target) : L.Runs (w.flapState org target) := by
  unfold Worker.flapState
  split
  · exact runs_pure
  · refine runs_bind runs_now fun at_ => ?_
    refine runs_try rfl fun r => ?_
    split <;> exact runs_pure

theorem heldReason_runs (incidentId : Uuid) : L.Runs (heldReason org incidentId) := by
  refine runs_try rfl fun r => ?_
  split
  · exact runs_pure
  · dsimp only
    split <;> exact runs_pure

/-! ### Receipts -/

theorem pushoverReceipts_runs (channelId : Uuid) : L.Runs (pushoverReceipts org channelId) := by
  refine runs_read rfl fun r _ => ?_
  split <;> exact runs_pure

theorem clearReceipt_runs (id : Uuid) : L.Runs (ignore (store (.clearReceipt org id))) :=
  runs_ignore (L.weaken (L.store .clear) fun _ _ => trivial)

theorem cancelOne_runs (ack : EmergencyAck) : L.Runs (cancelOne org ack) := by
  refine runs_bind (runs_attempt (pushoverReceipts_runs ack.channelId)) fun r => ?_
  split
  · exact clearReceipt_runs ack.id
  · exact runs_pure
  · refine runs_bind (runs_await rfl) fun r => ?_
    split
    · exact runs_pure
    · exact clearReceipt_runs ack.id

theorem cancelAll_runs : ∀ acks : List EmergencyAck, L.Runs (cancelAll org acks)
  | [] => runs_pure
  | ack :: rest => runs_bind (cancelOne_runs ack) fun _ => cancelAll_runs rest

theorem cancelEmergency_runs (incidentId : Uuid) : L.Runs (cancelEmergency org incidentId) := by
  refine runs_try rfl fun r => ?_
  split
  · exact runs_pure
  · exact cancelAll_runs _

end

theorem pageIsSpent_runs (ack : EmergencyAck) {L : QuietLogic ack.org} :
    L.Runs (pageIsSpent ack) := by
  refine runs_try rfl fun r => ?_
  split
  · exact runs_pure
  · exact runs_pure
  · split
    · exact runs_pure
    · refine runs_bind ?_ fun moved => ?_
      · refine runs_try rfl fun r => ?_
        split <;> exact runs_pure
      · split
        · exact runs_pure
        · split
          · exact runs_pure
          · refine runs_try rfl fun r => ?_
            split <;> exact runs_pure

/-! ## One send -/

/-- The calls of a send for incident `k` have the property. -/
structure QuietLogic.CanSend {org : OrgId} (L : QuietLogic org) (k : Uuid)
    (reason : NotificationReason) : Prop where
  notify : ∀ {channel : NotificationChannel} {notice : IncidentNotice} {id : Uuid} {attempt : Int}
    {g : Option Nat}, channel.org = org → notice.incidentId = k → notice.reason = reason →
    L.Runs (Job.await (.notify channel notice id attempt g))
  mark : ∀ id oc, L.Runs (Job.store (.markNotification org id oc))
  health : ∀ cid delivered, L.Runs (Job.store (.recordDeliveryOutcome org cid delivered))

section
variable {org : OrgId} {k : Uuid} {reason : NotificationReason} {L : QuietLogic org} (w : Worker)
  (hs : L.CanSend k reason)
include hs

theorem recordChannelHealth_runs (channel : NotificationChannel) (status : NotificationStatus)
    (nextAttemptAt : Option Time) :
    L.Runs (Worker.recordChannelHealth org channel status nextAttemptAt) := by
  unfold Worker.recordChannelHealth
  split
  · exact runs_pure
  · split
    · exact runs_ignore (hs.health _ _)
    · exact runs_ignore (hs.health _ _)
    · exact runs_pure

variable {channel : NotificationChannel} {notice : IncidentNotice}

theorem deliverVerified_runs (id : Uuid) (attempt : Int) (horg : channel.org = org)
    (hid : notice.incidentId = k) (hreason : notice.reason = reason) :
    L.Runs (w.deliverVerified org channel notice id attempt) := by
  unfold Worker.deliverVerified
  split
  · exact runs_pure
  · refine runs_bind (pushAck_runs w channel notice) fun ack => ?_
    refine runs_bind (hs.notify horg hid hreason) fun r => ?_
    split <;> exact runs_pure

theorem sendAndMark_runs (id : Uuid) (attempt : Int) (horg : channel.org = org)
    (hid : notice.incidentId = k) (hreason : notice.reason = reason) :
    L.Runs (w.sendAndMark org channel notice id attempt) := by
  refine runs_bind (deliverVerified_runs w hs id attempt horg hid hreason) fun r => ?_
  refine runs_bind (nextAttempt_runs w r.1 attempt r.2.1) fun nextAttemptAt => ?_
  refine runs_bind (recordChannelHealth_runs hs channel r.1 nextAttemptAt) fun _ => ?_
  refine runs_bind (sentStamp_runs r.1) fun sentAt => ?_
  exact runs_bind (hs.mark _ _) fun _ => runs_pure

theorem pageChannels_runs (level : Int) (hid : notice.incidentId = k)
    (hreason : notice.reason = reason) (hrecord : ∀ t channel, L.Runs (store (.recordNotification
      (queuedRow org k reason level t channel)))) :
    ∀ (targets : List PageTarget) (paged : Paged),
      L.Runs (w.pageChannels org k notice reason level targets paged)
  | [], _ => runs_pure
  | t :: rest, paged => by
    have ih := pageChannels_runs level hid hreason hrecord rest
    unfold Worker.pageChannels
    refine runs_read rfl fun r hr => ?_
    split
    · exact ih paged
    · next channel =>
      split
      · exact ih paged
      · refine runs_bind (hrecord t channel) fun id => ?_
        have hsend := sendAndMark_runs w hs id 1 (hr channel rfl).1 hid hreason
        exact runs_bind hsend fun status => ih _

end

theorem retryOne_runs (w : Worker) (p : PendingNotification) {L : QuietLogic p.org}
    (hs : L.CanSend p.incidentId p.reason) : L.Runs (w.retryOne p) := by
  refine L.bind (Q := Rebuilt p.org p.incidentId p.reason) ?_ fun r hr => ?_
  · unfold Worker.rebuildFor
    split
    · exact rebuildNotice_holds w p.incidentId _ p.reason
    · exact L.pure trivial
  · change L.Runs _
    split
    · exact runs_bind (retryBackoff_runs w _) fun at_ => hs.mark _ _
    · next notice channel state =>
      obtain ⟨horg, hid, hreason⟩ := hr
      split
      · exact hs.mark _ _
      · exact runs_bind (sendAndMark_runs w hs p.id _ horg hid hreason) fun _ => runs_pure

/-! ## Rounds of paging and what surrounds them -/

/-- A round of paging for `reason` has the property. -/
def RestLogic.CanPage {org : OrgId} {k : Uuid} (L : RestLogic org k) (w : Worker)
    (reason : NotificationReason) : Prop :=
  ∀ (notice : IncidentNotice) (level : Int) (targets : List PageTarget) (paged : Paged),
    notice.incidentId = k → notice.reason = reason →
    L.Runs (w.pageChannels org k notice reason level targets paged)

/-- The reasons a lifecycle signal pages for. -/
def NotificationReason.isLifecycle : NotificationReason → Bool
  | .opened | .reopened | .resolved => true
  | _ => false

section
variable {org : OrgId} {k : Uuid} {L : RestLogic org k} (w : Worker)

theorem runs_rest {o : StoreOp} (h : RestCall org k (.store o)) : L.Runs (store o) :=
  L.weaken (L.rest h) fun _ _ => trivial

theorem runs_rest_bind {o : StoreOp} {β : Type} {f : o.Ret → Job β}
    (h : RestCall org k (.store o)) (hf : ∀ a, L.Runs (f a)) : L.Runs (store o >>= f) :=
  L.bind (L.rest h) fun a _ => hf a

theorem logPaged_runs (reason : NotificationReason) (paged : Nat) :
    L.Runs (logPaged org k reason paged) := by
  unfold logPaged
  split
  · exact runs_pure
  · refine runs_rest (.event ?_)
    split <;> rfl

theorem noteIfEmpty_runs (level : Int) (targets : List PageTarget) :
    L.Runs (noteIfEmpty org k level targets) := by
  unfold noteIfEmpty
  split
  · exact runs_rest (.event rfl)
  · exact runs_pure

theorem bumpIfPaged_runs (recorded : Nat) : L.Runs (bumpIfPaged org k recorded) := by
  unfold bumpIfPaged
  split
  · exact runs_rest .bump
  · exact runs_pure

theorem holdForMaintenance_runs (reason : NotificationReason) :
    L.Runs (holdForMaintenance org k reason) :=
  runs_rest_bind .marker fun _ => runs_rest (.event rfl)

theorem hold_runs (reason : NotificationReason) : L.Runs (w.hold org k reason) :=
  runs_rest_bind .marker fun _ => runs_rest (.event rfl)

section
variable {incident : OpsIncident} {reason : NotificationReason} (hp : L.CanPage w reason)
  (hid : incident.id = k)
include hp hid

theorem openLadder_runs {notice : IncidentNotice} (policyId : Uuid)
    (hnotice : notice.incidentId = k) (hreason : notice.reason = reason) :
    L.Runs (w.openLadder org incident notice reason policyId) := by
  subst hid
  refine runs_read rfl fun r _ => ?_
  split
  · exact runs_pure
  · split
    · refine runs_bind runs_now fun at_ => ?_
      refine runs_bind (resolveTargets_runs _ _ at_) fun targets => ?_
      refine runs_bind (noteIfEmpty_runs _ targets) fun _ => ?_
      refine runs_bind (hp notice _ targets _ hnotice hreason) fun paged => ?_
      refine runs_bind runs_now fun now => ?_
      exact runs_rest_bind .arm fun _ => logPaged_runs _ _
    · exact runs_rest_bind .arm fun _ => runs_pure

theorem openFlat_runs (target : Target) {notice : IncidentNotice}
    (hnotice : notice.incidentId = k) (hreason : notice.reason = reason) :
    L.Runs (w.openFlat org incident target notice reason) := by
  subst hid
  refine runs_bind (pagingChannelIds_runs target) fun ids => ?_
  refine runs_bind (hp notice _ _ _ hnotice hreason) fun paged => ?_
  refine runs_bind (logPaged_runs _ _) fun _ => ?_
  split
  · exact runs_rest_bind .marker fun _ => runs_pure
  · exact runs_pure

theorem openDestination_runs (target : Target) (note : Option String) :
    L.Runs (w.openDestination org incident target reason note) := by
  refine runs_read rfl fun r _ => ?_
  split
  · exact openLadder_runs w hp hid _ hid rfl
  · exact openFlat_runs w hp hid target hid rfl

theorem openDamped_runs (target : Target) (damper : Damper) :
    L.Runs (w.openDamped org incident target reason damper) := by
  subst hid
  unfold Worker.openDamped
  split
  · refine runs_bind (flapState_runs w target) fun s => ?_
    split
    · exact openDestination_runs w hp rfl target none
    · refine runs_bind (runs_rest (.event rfl)) fun _ => openDestination_runs w hp rfl target _
    · exact hold_runs w reason
  · exact openDestination_runs w hp rfl target none

theorem openEpisode_runs (target : Target) (damper : Damper) :
    L.Runs (w.openEpisode org incident target reason damper) := by
  subst hid
  refine runs_read rfl fun already _ => ?_
  split
  · exact runs_pure
  · split
    · exact runs_pure
    · refine runs_bind (maintenanceHolds_runs incident target) fun held => ?_
      split
      · exact holdForMaintenance_runs reason
      · exact openDamped_runs w hp rfl target damper

end

variable {incident : OpsIncident} {reason : NotificationReason}

theorem notifyResolution_runs (hp : L.CanPage w .resolved) (hid : incident.id = k)
    (target : Target) : L.Runs (w.notifyResolution org incident target) := by
  subst hid
  refine runs_bind (cancelEmergency_runs _) fun _ => ?_
  split
  · exact runs_pure
  · refine runs_read rfl fun rows _ => ?_
    split
    · exact runs_pure
    · refine runs_bind (hp _ _ _ _ rfl rfl) fun paged => ?_
      exact logPaged_runs _ _

theorem pageTarget_runs (hp : reason.isLifecycle = true → L.CanPage w reason)
    (hid : incident.id = k) (target : Target) (damper : Damper) :
    L.Runs (w.pageTarget org incident target reason damper) := by
  unfold Worker.pageTarget
  split
  · exact runs_pure
  · split
    · exact openEpisode_runs w (hp rfl) hid target damper
    · refine runs_bind (cancelEmergency_runs _) fun _ => ?_
      exact openEpisode_runs w (hp rfl) hid target damper
    · exact notifyResolution_runs w (hp rfl) hid target
    all_goals exact runs_pure

theorem pageWith_locked (hp : reason.isLifecycle = true → L.CanPage w reason) (damper : Damper) :
    ∃ x : Job Unit, w.pageWith org k reason damper = locked k x ∧ L.Runs x := by
  refine ⟨_, rfl, runs_read rfl fun r hr => ?_⟩
  split
  · exact runs_pure
  · next incident =>
    split
    · exact runs_pure
    · refine runs_read rfl fun r _ => ?_
      split
      · exact runs_pure
      · exact pageTarget_runs w hp (hr incident rfl) _ damper

theorem pageWith_runs {L : PageLogic org k} (hp : reason.isLifecycle = true → L.CanPage w reason)
    (damper : Damper) : L.Runs (w.pageWith org k reason damper) := by
  obtain ⟨x, heq, hx⟩ := pageWith_locked w hp damper
  rw [heq]
  exact L.locked hx

end

section
variable (w : Worker) (d : DueIncident) {L : PageLogic d.org d.id}

theorem releaseOne_runs (hp : ∀ reason, reason.isLifecycle = true → L.CanPage w reason) :
    L.Runs (w.releaseOne d) := by
  refine runs_read rfl fun before _ => ?_
  refine runs_bind (heldReason_runs d.id) fun reason => ?_
  refine runs_bind (pageWith_runs w (hp reason) .skip) fun _ => ?_
  refine runs_read rfl fun after _ => ?_
  split
  · exact runs_pure
  · exact runs_rest_bind .marker fun _ => runs_pure

theorem disarm_runs : L.Runs (Worker.disarm d) := runs_rest_bind .rearm fun _ => runs_pure

theorem park_runs : L.Runs (Worker.park d) :=
  runs_bind runs_now fun _ => runs_rest_bind .rearm fun _ => runs_pure

theorem pageRung_runs {notice : IncidentNotice} (policy : EscalationPolicy)
    (level round delaySecs : Int) (hp : L.CanPage w .escalated) (hid : notice.incidentId = d.id)
    (hreason : notice.reason = .escalated) :
    L.Runs (w.pageRung d notice policy level round delaySecs) := by
  refine runs_bind runs_now fun at_ => ?_
  refine runs_bind (resolveTargets_runs policy level at_) fun targets => ?_
  refine runs_bind (noteIfEmpty_runs level targets) fun _ => ?_
  refine runs_bind (hp notice level targets _ hid hreason) fun paged => ?_
  refine runs_bind runs_now fun now => ?_
  exact runs_rest_bind .rearm fun _ => logPaged_runs _ _

theorem escalateOne_runs (hp : L.CanPage w .escalated) : L.Runs (w.escalateOne d) := by
  unfold Worker.escalateOne
  split
  · exact disarm_runs d
  · refine runs_read rfl fun r _ => ?_
    split
    · exact disarm_runs d
    · split
      · exact runs_bind (disarm_runs d) fun _ => runs_rest (.event rfl)
      · refine runs_read rfl fun r hr => ?_
        split
        · exact runs_pure
        · next incident =>
          split
          · exact runs_pure
          · refine runs_read rfl fun r _ => ?_
            split
            · exact runs_pure
            · refine runs_bind (escalationQuiet_runs _) fun quiet => ?_
              split
              · exact park_runs d
              · exact pageRung_runs w d _ _ _ _ hp (hr incident rfl) rfl

theorem remind_runs (incident : OpsIncident) (target : Target) (hp : L.CanPage w .reminder)
    (hid : incident.id = d.id) : L.Runs (w.remind d incident target) := by
  refine runs_read rfl fun rows _ => ?_
  split
  · exact runs_pure
  · refine runs_bind (hp _ _ _ _ hid rfl) fun paged => ?_
    refine runs_bind (bumpIfPaged_runs _) fun _ => ?_
    exact logPaged_runs _ _

theorem renotifyOne_runs (hp : L.CanPage w .reminder) : L.Runs (w.renotifyOne d) := by
  refine L.locked (runs_read rfl fun r hr => ?_)
  split
  · exact runs_pure
  · next incident =>
    split
    · exact runs_pure
    · split
      · exact runs_pure
      · refine runs_read rfl fun r _ => ?_
        split
        · exact runs_pure
        · split
          · exact runs_pure
          · refine runs_bind (alertsSuppressed_runs _) fun quiet => ?_
            split
            · exact runs_pure
            · exact remind_runs w d incident _ hp (hr incident rfl)

end

end Uptimepage
