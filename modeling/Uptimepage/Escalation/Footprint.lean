import Uptimepage.Escalation.Logic

/-!
# What each task can call

`PageCall org k R S` is the footprint of paging code for one incident: its resting calls,
its own page lock, and the rows, sends and marks of its rounds of paging.  It records
channel rows only for the reasons `R` and sends only the reasons `S`.
-/

namespace Uptimepage

open Async Async.Fallible Job QuietLogic

/-- The calls of paging code for incident `k`. -/
inductive PageCall (org : OrgId) (k : Uuid) (R S : NotificationReason → Prop) : Op → Prop
  | quiet {o : Op} : QuietCall org o → PageCall org k R S o
  | lock : PageCall org k R S (.lock (pageLock k))
  | unlock : PageCall org k R S (.unlock (pageLock k))
  | record {n : NewIncidentNotification} : n.org = org → n.incidentId = k →
      (n.channelId.isSome → R n.reason) → n.sentAt = none →
      PageCall org k R S (.store (.recordNotification n))
  | notify {channel : NotificationChannel} {notice : IncidentNotice} {id : Uuid} {attempt : Int}
      {g : Option Nat} : channel.org = org → notice.incidentId = k → S notice.reason →
      PageCall org k R S (.notify channel notice id attempt g)
  | mark {id : Uuid} {oc : NotificationOutcome} :
      PageCall org k R S (.store (.markNotification org id oc))
  | health {cid : Uuid} {delivered : Bool} :
      PageCall org k R S (.store (.recordDeliveryOutcome org cid delivered))
  | event {kind : IncidentEventKind} {actor : Actor} {message : Option String} :
      kind.byEngine = true → PageCall org k R S (.store (.appendEvent org k kind actor message))
  | arm {policyId : Uuid} {level : Int} {nextAt : Option Time} :
      PageCall org k R S (.store (.beginEscalation org k policyId level nextAt))
  | rearm {level round : Int} {nextAt : Option Time} :
      PageCall org k R S (.store (.recordEscalation org k level round nextAt))
  | bump : PageCall org k R S (.store (.bumpRenotifyCount org k))

inductive AckCall (a : EmergencyAck) : Op → Prop
  | quiet {o : Op} : QuietCall a.org o → AckCall a o
  | acknowledge {began : Time} {note : Option String} : AckCall a
      (.store (.acknowledge began a.org a.incidentId .link note (some a.generation)))
  | acked {at_ : Time} : AckCall a (.store (.markAcked a.org a.id at_))

/-- The operations of the request handlers and the incident writer. -/
def StoreOp.byRequest : StoreOp → Bool
  | .declare .. | .acknowledge .. | .resolve .. | .reopen .. | .publish .. | .unpublish ..
  | .insertOpen .. | .close .. | .configure .. | .deleteChannel .. => true
  | _ => false

def Op.byRequest : Op → Bool
  | .begin | .signal _ => true
  | .store o => o.byRequest
  | _ => false

def RequestCall (o : Op) : Prop := o.byRequest = true

theorem PageCall.mono {org : OrgId} {k : Uuid} {R R' S S' : NotificationReason → Prop} {o : Op}
    (hR : ∀ r, R r → R' r) (hS : ∀ r, S r → S' r) (h : PageCall org k R S o) :
    PageCall org k R' S' o := by
  cases h with
  | quiet h => exact .quiet h
  | lock => exact .lock
  | unlock => exact .unlock
  | record horg hid hr hs => exact .record horg hid (fun hc => hR _ (hr hc)) hs
  | notify horg hid hs => exact .notify horg hid (hS _ hs)
  | mark => exact .mark
  | health => exact .health
  | event hk => exact .event hk
  | arm => exact .arm
  | rearm => exact .rearm
  | bump => exact .bump

/-! ## Steps of a job -/

section
variable {P : Op → Prop} {α : Type} {Q : α → Prop}

theorem all_store {o : StoreOp} (h : P (.store o)) : All Op.Honest P o.Honest (store o) :=
  ⟨h, fun _ hr => hr⟩

theorem all_await {o : Op} (h : P o) : All Op.Honest P (fun _ => True) (await o) :=
  ⟨h, fun _ _ => trivial⟩

theorem all_begin (h : P .begin) : All Op.Honest P (fun _ => True) begin :=
  ⟨h, fun r _ => by cases r <;> trivial⟩

theorem all_ignore {x : Job α} (h : All Op.Honest P Q x) :
    All Op.Honest P (fun _ => True) (ignore x) :=
  all_bind (all_attempt h) fun _ _ => all_pure trivial

theorem all_weaken {Q' : α → Prop} {x : Job α} (h : All Op.Honest P Q x)
    (hQ : ∀ a, Q a → Q' a) : All Op.Honest P Q' x :=
  Prog.All.mono (fun _ h => h) (fun r hr => by cases r with
    | ok a => exact hQ a hr
    | error e => trivial) h

theorem all_locked {k : Uuid} {x : Job α} (hl : P (.lock (pageLock k)))
    (hu : P (.unlock (pageLock k))) (hx : All Op.Honest P Q x) :
    All Op.Honest P Q (locked k x) :=
  ⟨hl, fun _ _ => Prog.All.bind hx fun _ hr => ⟨hu, fun _ _ => hr⟩⟩

end

/-! ## The logic of a footprint -/

/-- Staying inside a footprint that has the quiet calls. -/
def quietFootprint (org : OrgId) (P : Op → Prop) (hq : ∀ o, QuietCall org o → P o) :
    QuietLogic org where
  Holds := fun Q x => All Op.Honest P Q x
  pure := all_pure
  bind := all_bind
  attempt := all_attempt
  weaken := all_weaken
  store := fun h => all_store (hq _ h)
  await := fun h => all_await (hq _ h)

section
variable {org : OrgId} {k : Uuid} {R S : NotificationReason → Prop}

theorem RestCall.pageCall {o : Op} (h : RestCall org k o) : PageCall org k R S o := by
  cases h with
  | quiet h => exact .quiet h
  | marker => exact .record rfl rfl (by simp [markerRow]) rfl
  | event h => exact .event h
  | arm => exact .arm
  | rearm => exact .rearm
  | bump => exact .bump

/-- Staying inside `PageCall org k R S`. -/
def footprint (org : OrgId) (k : Uuid) (R S : NotificationReason → Prop) : PageLogic org k where
  toQuietLogic := quietFootprint org (PageCall org k R S) fun _ => .quiet
  rest := fun h => all_store h.pageCall
  locked := all_locked .lock .unlock

/-- A job of the footprint `PageCall org k R S`. -/
def Pages {α : Type} (org : OrgId) (k : Uuid) (R S : NotificationReason → Prop) (x : Job α) :
    Prop :=
  (footprint org k R S).Runs x

variable {α β : Type}

theorem pages_call {o : StoreOp} (h : PageCall org k R S (.store o)) :
    Pages org k R S (store o) :=
  all_weaken (all_store h) fun _ _ => trivial

theorem Pages.mono {R' S' : NotificationReason → Prop} {x : Job α} (hR : ∀ r, R r → R' r)
    (hS : ∀ r, S r → S' r) (h : Pages org k R S x) : Pages org k R' S' x :=
  Prog.All.mono (fun _ => PageCall.mono hR hS) (fun _ h => h) h

theorem footprint_canSend {reason : NotificationReason} (hS : S reason) :
    (footprint org k R S).CanSend k reason where
  notify := fun horg hid hreason => all_await (.notify horg hid (hreason ▸ hS))
  mark := fun _ _ => pages_call .mark
  health := fun _ _ => pages_call .health

theorem sendAndMark_pages (w : Worker) {channel : NotificationChannel} {notice : IncidentNotice}
    (id : Uuid) (attempt : Int) (horg : channel.org = org) (hid : notice.incidentId = k)
    (hS : S notice.reason) :
    Pages org k R S (w.sendAndMark org channel notice id attempt) :=
  sendAndMark_runs w (footprint_canSend hS) id attempt horg hid rfl

theorem footprint_canPage (w : Worker) {reason : NotificationReason} (hR : R reason)
    (hS : S reason) : (footprint org k R S).CanPage w reason :=
  fun _ level targets paged hid hreason =>
    pageChannels_runs w (footprint_canSend hS) level hid hreason
      (fun _ _ => pages_call (.record rfl rfl (fun _ => hR) rfl)) targets paged

theorem footprint_canPage_self (w : Worker) (reason : NotificationReason) :
    (footprint org k (· = reason) (· = reason)).CanPage w reason :=
  footprint_canPage w rfl rfl

end

theorem retryOne_pages (w : Worker) (p : PendingNotification) :
    Pages p.org p.incidentId (fun _ => False) (· = p.reason) (w.retryOne p) :=
  retryOne_runs w p (footprint_canSend rfl)

/-! ## Receipts -/

section
variable (ack : EmergencyAck)

/-- Staying inside the calls of a receipt's poll. -/
def ackFootprint : QuietLogic ack.org := quietFootprint ack.org (AckCall ack) fun _ => .quiet

theorem markAckedNow_runs : (ackFootprint ack).Runs (markAckedNow ack) :=
  runs_bind runs_now fun _ => all_ignore (all_store .acked)

theorem recordAck_runs : (ackFootprint ack).Runs (recordAck ack) := by
  refine runs_bind (runs_attempt ?_) fun r => ?_
  · refine all_bind (all_begin (.quiet (.own rfl))) fun began _ => ?_
    exact all_weaken (all_store .acknowledge) fun _ _ => trivial
  · split
    · refine runs_bind (markAckedNow_runs ack) fun _ => ?_
      exact cancelEmergency_runs ack.incidentId
    · exact markAckedNow_runs ack
    · exact runs_pure

theorem pollOneAck_runs : (ackFootprint ack).Runs (pollOneAck ack) := by
  refine runs_bind (runs_attempt (pushoverReceipts_runs ack.channelId)) fun r => ?_
  split
  · exact runs_pure
  · exact clearReceipt_runs ack.id
  · refine runs_bind (runs_await rfl) fun r => ?_
    split
    · exact runs_pure
    · split
      · exact recordAck_runs ack
      · split
        · exact clearReceipt_runs ack.id
        · refine runs_bind (pageIsSpent_runs ack) fun spent => ?_
          split
          · refine runs_bind (runs_await rfl) fun r => ?_
            split
            · exact runs_pure
            · exact clearReceipt_runs ack.id
          · exact runs_pure

end

/-! ## Tasks -/

theorem signalIf_all (b : Bool) (org : OrgId) (id : Uuid) (reason : NotificationReason) :
    All Op.Honest RequestCall (fun _ => True) (signalIf b org id reason) := by
  unfold signalIf
  split
  · exact all_await rfl
  · exact all_pure trivial

theorem request_all (r : Request) : All Op.Honest RequestCall (fun _ => True) r.handle := by
  cases r with
  | declare org new user =>
    refine all_bind (all_begin rfl) fun began _ => ?_
    refine all_bind (all_store rfl) fun inc _ => ?_
    refine all_bind (Q := fun _ => True) ?_ fun _ _ => signalIf_all ..
    unfold publishDeclared
    split
    · exact all_ignore (all_bind (all_begin rfl) fun _ _ => all_store rfl)
    · exact all_pure trivial
  | acknowledge org id actor note g =>
    refine all_bind (all_begin rfl) fun began _ => ?_
    exact all_bind (all_store rfl) fun _ _ => all_pure trivial
  | resolve org id actor note =>
    refine all_bind (all_begin rfl) fun began _ => ?_
    refine all_bind (all_store rfl) fun r _ => ?_
    split
    · exact all_await rfl
    · exact all_pure trivial
  | reopen org id actor note =>
    refine all_bind (all_begin rfl) fun began _ => ?_
    refine all_bind (all_store rfl) fun r _ => ?_
    split
    · exact signalIf_all ..
    · exact all_pure trivial
  | publish org id title description actor =>
    refine all_bind (all_begin rfl) fun began _ => ?_
    exact all_bind (all_store rfl) fun _ _ => all_pure trivial
  | unpublish org id actor =>
    refine all_bind (all_begin rfl) fun began _ => ?_
    exact all_bind (all_store rfl) fun _ _ => all_pure trivial
  | openIncident org new =>
    refine all_bind (all_store rfl) fun r _ => ?_
    split
    · exact all_await rfl
    · exact all_pure trivial
  | closeIncident org id endedAt => exact all_bind (all_store rfl) fun r _ => signalIf_all ..
  | configure settings => exact all_weaken (all_store rfl) fun _ _ => trivial
  | deleteChannel org id => exact all_weaken (all_store rfl) fun _ _ => trivial

/-- The footprint of each task. -/
def Tag.Call : Tag → Op → Prop
  | .signal sig => PageCall sig.org sig.incidentId
      (fun r => r = sig.reason ∧ r.isLifecycle = true)
      (fun r => r = sig.reason ∧ r.isLifecycle = true)
  | .item (.reconcile d) => PageCall d.org d.id (· = .opened) (· = .opened)
  | .item (.release d) => PageCall d.org d.id (·.isLifecycle = true) (·.isLifecycle = true)
  | .item (.escalate d) => PageCall d.org d.id (· = .escalated) (· = .escalated)
  | .item (.renotify d) => PageCall d.org d.id (· = .reminder) (· = .reminder)
  | .item (.retry p) => PageCall p.org p.incidentId (fun _ => False) (· = p.reason)
  | .item (.pollAck a) => AckCall a
  | .request _ => RequestCall

theorem code_all (w : Worker) (t : Tag) :
    (w.code t).All Op.Honest t.Call fun _ => True := by
  cases t with
  | signal sig =>
    exact all_detach (pageWith_runs w (fun h => footprint_canPage w ⟨rfl, h⟩ ⟨rfl, h⟩) .apply)
  | item it =>
    cases it with
    | reconcile d =>
      exact all_detach (pageWith_runs w (fun _ => footprint_canPage_self w .opened) .apply)
    | release d => exact all_detach (releaseOne_runs w d fun _ h => footprint_canPage w h h)
    | escalate d => exact all_detach (escalateOne_runs w d (footprint_canPage_self w .escalated))
    | renotify d => exact all_detach (renotifyOne_runs w d (footprint_canPage_self w .reminder))
    | retry p => exact all_detach (retryOne_pages w p)
    | pollAck a => exact all_detach (pollOneAck_runs a)
  | request r => exact all_detach (request_all r)

end Uptimepage
