import Uptimepage.Async.Tracker
import Uptimepage.Escalation.Moves

/-!
# The row a task is to send

A task that pages has at most one row of the paging log to see through: it records the row
as attempt 1, or is started to retry it as the next attempt, sends it at most once, and
marks it with that attempt.  `Duty` is where it is with its row, `duties` the tracker that
reads it off the task's calls; every task of the engine keeps to it (`code_follows`).
-/

namespace Uptimepage

open Async Async.Fallible Job QuietLogic

/-- What a task is to do with a row: nothing, or send it as attempt `attempt` and mark it. -/
inductive Duty
  | free
  | owes (org : OrgId) (id : Uuid) (attempt : Int) (tried : Bool)
deriving DecidableEq

/-- A failed attempt below the cap says when it is tried again. -/
def NotificationOutcome.Settles (cap : Nat) (oc : NotificationOutcome) : Prop :=
  oc.status ≠ .queued ∧ (oc.status = .failed → oc.attempt < cap → oc.nextAttemptAt.isSome)

namespace Duty

/-- Where an answered call takes the task. -/
def next : Duty → (o : Op) → o.Res → Duty
  | .free, .store (.recordNotification n), r =>
    match (r : Except StoreError Uuid) with
    | .ok id => if n.status = .queued then .owes n.org id n.attempt false else .free
    | .error _ => .free
  | .owes org id a _, .notify .., _ => .owes org id a true
  | .owes .., .store (.markNotification ..), _ => .free
  | d, _, _ => d

/-- What the task may call there. -/
def allows (cap : Nat) : Duty → Op → Prop
  | .free, .store (.recordNotification n) =>
    n.status = .queued ∧ n.attempt = 1 ∨ n.status = .suppressed ∧ n.attempt = 0
  | .free, .notify .. => False
  | .free, .store (.markNotification ..) => False
  | .owes _ id a tried, .notify _ _ id' a' _ => id' = id ∧ a' = a ∧ tried = false
  | .owes org id a _, .store (.markNotification org' id' oc) =>
    org' = org ∧ id' = id ∧ oc.attempt = a ∧ oc.Settles cap
  | .owes .., .store (.recordNotification _) => False
  | _, _ => True

/-- No row has been sent and not marked. -/
def Over (d : Duty) : Prop := ∀ org id a, d ≠ .owes org id a true

end Duty

def duties (cap : Nat) : Tracker calls Duty := ⟨Duty.next, Duty.allows cap⟩

/-- What a task is started to do. -/
def Tag.duty : Tag → Duty
  | .item (.retry p) => .owes p.org p.id (p.attempt + 1) false
  | _ => .free

section
variable {cap : Nat} {d : Duty} {org : OrgId} {k id : Uuid} {a : Int} {o : Op}

theorem Duty.over_free : Duty.free.Over := fun _ _ _ h => by cases h

theorem Duty.over_untried : (Duty.owes org id a false).Over := fun _ _ _ h => by cases h

/-- Calls that neither record a row, nor send one, nor mark one. -/
def Op.aside : Op → Bool
  | .notify .. | .store (.recordNotification _) | .store (.markNotification ..) => false
  | _ => true

theorem Op.aside_duty (h : o.aside = true) :
    (duties cap).allows d o ∧ ∀ r, (duties cap).next d o r = d := by
  cases d with
  | free =>
    cases o with
    | store so => cases so <;> first | exact ⟨trivial, fun _ => rfl⟩ | cases h
    | _ => first | exact ⟨trivial, fun _ => rfl⟩ | cases h
  | owes org id a tried =>
    cases o with
    | store so => cases so <;> first | exact ⟨trivial, fun _ => rfl⟩ | cases h
    | _ => first | exact ⟨trivial, fun _ => rfl⟩ | cases h

theorem QuietCall.aside (h : QuietCall org o) : Op.aside o = true := by
  cases h with
  | @read so h => cases so <;> first | rfl | cases h
  | own h => cases o <;> first | rfl | cases h
  | clear => rfl

theorem QuietCall.duty (h : QuietCall org o) :
    (duties cap).allows d o ∧ ∀ r, (duties cap).next d o r = d :=
  Op.aside_duty h.aside

theorem RestCall.duty (h : RestCall org k o) :
    (duties cap).allows .free o ∧ ∀ r, (duties cap).next .free o r = .free := by
  cases h with
  | quiet h => exact h.duty
  | marker =>
    refine ⟨.inr ⟨rfl, rfl⟩, fun r => ?_⟩
    cases r <;> rfl
  | _ => exact ⟨trivial, fun _ => rfl⟩

/-! ## Stretches of code that stay where they are -/

/-- Staying at `d`, on the quiet calls. -/
def restsAt (cap : Nat) (d : Duty) (org : OrgId) : QuietLogic org where
  Holds := fun Q x => (duties cap).Follows Op.Honest x (fun r d' => okSat Q r ∧ d' = d) d
  pure := fun h => ⟨h, rfl⟩
  bind := fun hx hf => Tracker.Follows.andThen <| Tracker.Follows.mono (fun r d' hr => by
    obtain ⟨hr, rfl⟩ := hr
    cases r with
    | ok a => exact hf a hr
    | error e => exact ⟨trivial, rfl⟩) hx
  attempt := fun hx => Tracker.Follows.bind hx
  weaken := fun hx hQ => Tracker.Follows.mono (fun r _ hr => ⟨by
    cases r with
    | ok a => exact hQ a hr.1
    | error e => trivial, hr.2⟩) hx
  store := fun h => by
    obtain ⟨hallow, hstay⟩ := h.duty
    exact ⟨hallow, fun r hr => ⟨hr, hstay r⟩⟩
  await := fun h => by
    obtain ⟨hallow, hstay⟩ := h.duty
    exact ⟨hallow, fun r _ => ⟨trivial, hstay r⟩⟩

/-- Staying free, on the bookkeeping of an incident's paging too. -/
def restsFree (cap : Nat) (org : OrgId) (k : Uuid) : PageLogic org k where
  toQuietLogic := restsAt cap .free org
  rest := fun h => by
    obtain ⟨hallow, hstay⟩ := h.duty
    exact ⟨hallow, fun r hr => ⟨hr, hstay r⟩⟩
  locked := fun hx => by
    refine ⟨trivial, fun _ _ => Tracker.Follows.bind (Tracker.Follows.mono (fun r d' hr => ?_) hx)⟩
    obtain ⟨hr, rfl⟩ := hr
    exact ⟨trivial, fun _ _ => ⟨hr, rfl⟩⟩

section
variable {α β : Type} {R : α → Prop}

/-- A stretch of such calls that ends in a value. -/
def Aside (R : α → Prop) (x : Job α) : Prop :=
  Prog.All Op.Honest (fun o => Op.aside o = true) (fun r => ∃ a, r = .ok a ∧ R a) x

theorem aside_pure {v : α} (h : R v) : Aside R (pure v : Job α) := ⟨v, rfl, h⟩

theorem aside_bind {R' : β → Prop} {x : Job α} {f : α → Job β} (hx : Aside R x)
    (hf : ∀ v, R v → Aside R' (f v)) : Aside R' (x >>= f) := by
  refine Prog.All.bind hx fun r hr => ?_
  obtain ⟨v, rfl, hv⟩ := hr
  exact hf v hv

theorem aside_await (h : o.aside = true) : Aside (fun _ => True) (await o) :=
  ⟨h, fun r _ => ⟨r, rfl, trivial⟩⟩

theorem aside_try {so : StoreOp} (h : Op.aside (.store so) = true) :
    Aside (fun _ => True) (store so).attempt :=
  ⟨h, fun r _ => ⟨r, rfl, trivial⟩⟩

theorem aside_ignore {so : StoreOp} (h : Op.aside (.store so) = true) :
    Aside (fun _ => True) (ignore (store so)) :=
  aside_bind (aside_try h) fun _ _ => aside_pure trivial

theorem follows_aside {x : Job α} {f : α → Job β} {Q : Except StoreError β → Duty → Prop}
    (hx : Aside R x) (hf : ∀ v, R v → (duties cap).Follows Op.Honest (f v) Q d) :
    (duties cap).Follows Op.Honest (x >>= f : Job β) Q d := by
  refine Tracker.Follows.andThen (Tracker.Follows.mono (fun r d' hr => ?_)
    (Tracker.follows_of_all (fun o ho => Op.aside_duty ho) hx))
  obtain ⟨⟨v, rfl, hv⟩, rfl⟩ := hr
  exact hf v hv

end

/-! ## One send -/

section
variable {α : Type} (w : Worker)

theorem pushAck_aside (channel : NotificationChannel) (notice : IncidentNotice) :
    Aside (fun _ => True) (w.pushAck org channel notice) := by
  unfold Worker.pushAck
  split
  · exact aside_pure trivial
  · refine aside_bind (aside_try rfl) fun r _ => ?_
    split <;> exact aside_pure trivial

theorem retryBackoff_isSome (attempt : Int) :
    Aside (fun t => attempt < w.cfg.maxAttempts → t.isSome) (w.retryBackoff attempt) := by
  unfold Worker.retryBackoff
  split
  · next hnone =>
    refine aside_pure fun hlt => ?_
    unfold retryDelaySecs at hnone
    split at hnone
    · next hle => exact absurd hlt (Int.not_lt.mpr hle)
    · cases hnone
  · refine aside_bind (aside_await rfl) fun j _ => ?_
    exact aside_bind (aside_await rfl) fun t _ => aside_pure fun _ => rfl

theorem nextAttempt_isSome (status : NotificationStatus) (attempt : Int)
    (error : Option String) :
    Aside (fun t => status = .failed → attempt < w.cfg.maxAttempts → t.isSome)
      (w.nextAttempt status attempt error) := by
  unfold Worker.nextAttempt
  split
  · refine aside_bind (retryBackoff_isSome w attempt) fun t ht => ?_
    split
    · exact aside_pure fun _ hlt => ht hlt
    · split
      · exact aside_pure fun _ _ => rfl
      · exact aside_bind (aside_await rfl) fun _ _ => aside_pure fun _ _ => rfl
  · next hs => exact aside_pure fun hf => absurd hf hs

theorem recordChannelHealth_aside (channel : NotificationChannel) (status : NotificationStatus)
    (nextAttemptAt : Option Time) :
    Aside (fun _ => True) (Worker.recordChannelHealth org channel status nextAttemptAt) := by
  unfold Worker.recordChannelHealth
  split
  · exact aside_pure trivial
  · split
    · exact aside_ignore rfl
    · exact aside_ignore rfl
    · exact aside_pure trivial

theorem sentStamp_aside (status : NotificationStatus) :
    Aside (fun _ => True) (Worker.sentStamp status) := by
  unfold Worker.sentStamp
  split
  · exact aside_bind (aside_await rfl) fun _ _ => aside_pure trivial
  · exact aside_pure trivial

theorem follows_deliver {channel : NotificationChannel} {notice : IncidentNotice}
    {f : NotificationStatus × Option String × Option String → Job α}
    {Q : Except StoreError α → Duty → Prop}
    (hf : ∀ r tried, r.1 ≠ .queued →
      (duties cap).Follows Op.Honest (f r) Q (.owes org id a tried)) :
    (duties cap).Follows Op.Honest (w.deliverVerified org channel notice id a >>= f : Job α) Q
      (.owes org id a false) := by
  unfold Worker.deliverVerified
  split
  · exact hf _ false (by simp)
  · refine Tracker.Follows.andThen ?_
    refine follows_aside (pushAck_aside w channel notice) fun ack _ => ?_
    refine ⟨⟨rfl, rfl, rfl⟩, fun r _ => ?_⟩
    change Except String (Option String) at r
    cases r with
    | ok receipt => exact hf _ true (by simp)
    | error err => exact hf _ true (by simp)

theorem sendAndMark_follows {channel : NotificationChannel} {notice : IncidentNotice} :
    (duties w.cfg.maxAttempts).Follows Op.Honest (w.sendAndMark org channel notice id a)
      (fun _ d => d = .free) (.owes org id a false) := by
  refine follows_deliver w fun r tried hr => ?_
  refine follows_aside (nextAttempt_isSome w r.1 a r.2.1) fun nextAttemptAt hnext => ?_
  refine follows_aside (recordChannelHealth_aside channel _ _) fun _ _ => ?_
  refine follows_aside (sentStamp_aside _) fun sentAt _ => ?_
  refine ⟨⟨rfl, rfl, rfl, hr, hnext⟩, fun r _ => ?_⟩
  cases r <;> rfl

theorem pageChannels_follows (notice : IncidentNotice) (reason : NotificationReason)
    (level : Int) : ∀ (targets : List PageTarget) (paged : Paged),
      (restsFree w.cfg.maxAttempts org k).Runs
        (w.pageChannels org k notice reason level targets paged)
  | [], paged => runs_pure
  | t :: rest, paged => by
    have ih := pageChannels_follows notice reason level rest
    unfold Worker.pageChannels
    refine runs_read rfl fun r _ => ?_
    split
    · exact ih paged
    · next channel _ =>
      split
      · exact ih paged
      · refine ⟨.inl ⟨rfl, rfl⟩, fun r _ => ?_⟩
        change Except StoreError Uuid at r
        cases r with
        | error e => exact ⟨trivial, rfl⟩
        | ok id =>
          refine Tracker.Follows.andThen (Tracker.Follows.mono (fun r d hd => ?_)
            (sendAndMark_follows w))
          subst hd
          cases r with
          | ok status => exact ih _
          | error e => exact ⟨trivial, rfl⟩

theorem restsFree_canPage (reason : NotificationReason) :
    (restsFree w.cfg.maxAttempts org k).CanPage w reason :=
  fun notice level targets paged _ _ => pageChannels_follows w notice reason level targets paged

theorem retryOne_follows (p : PendingNotification) :
    (duties w.cfg.maxAttempts).Follows Op.Honest (w.retryOne p) (fun _ => Duty.Over)
      (.owes p.org p.id (p.attempt + 1) false) := by
  have hrebuild : (restsAt w.cfg.maxAttempts (.owes p.org p.id (p.attempt + 1) false) p.org).Runs
      (w.rebuildFor p) := by
    unfold Worker.rebuildFor
    split
    · exact (restsAt _ _ _).weaken (rebuildNotice_holds w p.incidentId _ p.reason)
        fun _ _ => trivial
    · exact runs_pure
  refine Tracker.Follows.andThen (Tracker.Follows.mono (fun r d hr => ?_) hrebuild)
  obtain ⟨-, rfl⟩ := hr
  cases r with
  | error e => exact Duty.over_untried
  | ok rebuilt =>
    dsimp only
    split
    · refine follows_aside (retryBackoff_isSome w _) fun nextAttemptAt hnext => ?_
      refine ⟨⟨rfl, rfl, rfl, by simp, fun _ hlt => hnext hlt⟩, fun r _ => ?_⟩
      cases r <;> exact Duty.over_free
    · split
      · refine ⟨⟨rfl, rfl, rfl, by simp, by simp⟩, fun r _ => ?_⟩
        cases r <;> exact Duty.over_free
      · refine Tracker.Follows.andThen (Tracker.Follows.mono (fun r d hd => ?_)
          (sendAndMark_follows w))
        subst hd
        cases r <;> exact Duty.over_free

theorem code_follows (t : Tag) :
    (duties w.cfg.maxAttempts).Follows Op.Honest (w.code t) (fun _ => Duty.Over) t.duty := by
  have hpage : ∀ {org : OrgId} {k : Uuid} {x : Job Unit},
      (restsFree w.cfg.maxAttempts org k).Runs x →
      (duties w.cfg.maxAttempts).Follows Op.Honest x.detach (fun _ => Duty.Over) .free :=
    fun hx => Tracker.Follows.bind (Tracker.Follows.mono (fun _ _ hr => by
      obtain ⟨-, rfl⟩ := hr
      exact Duty.over_free) hx)
  have haside : t.duty = .free → (∀ o, t.Call o → o.aside = true) →
      (duties w.cfg.maxAttempts).Follows Op.Honest (w.code t) (fun _ => Duty.Over) t.duty := by
    intro hfree hall
    refine Tracker.Follows.mono (fun _ _ hr => ?_)
      (Tracker.follows_of_all (fun o ho => Op.aside_duty (hall o ho)) (code_all w t))
    obtain ⟨-, rfl⟩ := hr
    rw [hfree]
    exact Duty.over_free
  cases t with
  | signal sig => exact hpage (pageWith_runs w (fun _ => restsFree_canPage w _) .apply)
  | item it =>
    cases it with
    | reconcile d => exact hpage (pageWith_runs w (fun _ => restsFree_canPage w _) .apply)
    | release d => exact hpage (releaseOne_runs w d fun _ _ => restsFree_canPage w _)
    | escalate d => exact hpage (escalateOne_runs w d (restsFree_canPage w _))
    | renotify d => exact hpage (renotifyOne_runs w d (restsFree_canPage w _))
    | retry p => exact Tracker.Follows.bind (retryOne_follows w p)
    | pollAck ack =>
      refine haside rfl fun o ho => ?_
      cases ho with
      | quiet h => exact h.aside
      | acknowledge => rfl
      | acked => rfl
  | request r =>
    refine haside rfl fun o ho => ?_
    cases o with
    | store so => cases so <;> first | rfl | cases ho
    | _ => first | rfl | cases ho

end
end

end Uptimepage
