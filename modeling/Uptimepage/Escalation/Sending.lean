import Uptimepage.Escalation.Contracts

/-!
# What a task does with the rows it sends

A row of the paging log is *in a task's hands* from its record, or from the start of its
retry, to the mark of its outcome (`Holds`).  `sendContract` says that a task sends
a row in its hands at most once before it marks it, and marks a row it has delivered as `sent`.
-/

namespace Uptimepage

open Async Async.Fallible Job QuietLogic

/-! ## The history of one row -/

/-- The call delivered row `id`. -/
def Op.delivers (id : Uuid) : (o : Op) → o.Res → Bool
  | .notify _ _ id' _ _, r =>
    id' == id && match (r : Except String (Option String)) with
      | .ok _ => true
      | .error _ => false
  | _, _ => false

/-- The insert was answered with `id`. -/
def answers (id : Uuid) : Except StoreError Uuid → Bool
  | .ok id' => id' == id
  | .error _ => false

/-- The call recorded row `id`, to be sent. -/
def Op.records (org : OrgId) (id : Uuid) : (o : Op) → o.Res → Bool
  | .store (.recordNotification n), r => n.status == .queued && n.org == org && answers id r
  | _, _ => false

/-- The call is to mark row `id` with an outcome. -/
def Op.marks (id : Uuid) : Op → Bool
  | .store (.markNotification _ id' _) => id' == id
  | _ => false

def sendStatus : Except String (Option String) → NotificationStatus
  | .ok _ => .sent
  | .error _ => .failed

/-- Calls that neither queue a row, nor send, nor mark. -/
def Op.idle : Op → Bool
  | .notify .. | .store (.markNotification ..) => false
  | .store (.recordNotification n) => n.status != .queued
  | _ => true

/-- Successful deliveries of row `id` in a history. -/
def deliveries (log : List (Entry calls)) (id : Uuid) : Nat :=
  log.countP fun x => Op.delivers id x.op x.res

/-- The calls of task `me`. -/
def own (me : Nat) (log : List (Entry calls)) : List (Entry calls) :=
  log.filter fun x => x.task == me

/-- A task with these calls took the row up: it recorded the row, or is its retry. -/
def Took (t : Tag) (log : List (Entry calls)) (org : OrgId) (id : Uuid) : Prop :=
  (∃ x ∈ log, Op.records org id x.op x.res = true) ∨
    ∃ p, t = .item (.retry p) ∧ p.org = org ∧ p.id = id

/-- It took the row up and has not marked it. -/
def Holds (t : Tag) (log : List (Entry calls)) (org : OrgId) (id : Uuid) : Prop :=
  Took t log org id ∧ ∀ x ∈ log, Op.marks id x.op = false

theorem recorded_queued {n : NewIncidentNotification} {id : Uuid} (h : n.status = .queued) :
    Op.records n.org id (.store (.recordNotification n)) (.ok id) = true := by
  simp [Op.records, h, answers]

theorem idle_delivers {o : Op} (h : o.idle = true) (id : Uuid) (r : o.Res) :
    o.delivers id r = false := by
  cases o <;> first | rfl | cases h

theorem idle_records {o : Op} (h : o.idle = true) (org : OrgId) (id : Uuid) (r : o.Res) :
    o.records org id r = false := by
  cases o with
  | store so =>
    cases so with
    | recordNotification n =>
      simp only [Op.idle, bne_iff_ne, ne_eq] at h
      simp [Op.records, h]
    | _ => rfl
  | _ => rfl

theorem idle_marks {o : Op} (h : o.idle = true) (id : Uuid) : o.marks id = false := by
  cases o with
  | store so => cases so <;> first | rfl | cases h
  | _ => rfl

theorem delivers_marks {o : Op} {r : o.Res} {id : Uuid} (h : o.delivers id r = true) :
    o.marks id = false := by
  cases o <;> first | rfl | cases h

section
variable {t : Tag} {me : Nat} {log : List (Entry calls)} {org : OrgId} {id : Uuid}
  {x : Entry calls}

@[simp]
theorem own_cons_self {o : Op} {r : o.Res} : own me (⟨me, o, r⟩ :: log) = ⟨me, o, r⟩ :: own me log := by
  simp [own]

theorem own_cons_ne {i : Nat} {o : Op} {r : o.Res} (h : i ≠ me) :
    own me (⟨i, o, r⟩ :: log) = own me log := by
  simp [own, h]

theorem mem_own (h : x ∈ own me log) : x ∈ log := (List.mem_filter.mp h).1

theorem deliveries_cons : deliveries (x :: log) id =
    deliveries log id + if Op.delivers id x.op x.res then 1 else 0 := by
  simp [deliveries, List.countP_cons]

theorem deliveries_cons_of_not (h : Op.delivers id x.op x.res = false) :
    deliveries (x :: log) id = deliveries log id := by
  simp [deliveries_cons, h]

theorem deliveries_eq_zero_of {log : List (Entry calls)}
    (h : ∀ x ∈ log, Op.delivers id x.op x.res = false) : deliveries log id = 0 :=
  List.countP_eq_zero.mpr fun x hx => by simp [h x hx]

theorem holds_cons_of (hr : Op.records org id x.op x.res = false)
    (hm : Op.marks id x.op = false) :
    Holds t (x :: log) org id ↔ Holds t log org id := by
  simp [Holds, Took, hr, hm]

theorem Holds.cons (h : Holds t log org id) (hm : Op.marks id x.op = false) :
    Holds t (x :: log) org id := by
  refine ⟨h.1.imp_left fun ⟨y, hy, hrec⟩ => ⟨y, List.mem_cons_of_mem _ hy, hrec⟩, fun y hy => ?_⟩
  rcases List.mem_cons.mp hy with rfl | hy
  · exact hm
  · exact h.2 y hy

theorem holds_cons_idle (h : x.op.idle = true) :
    Holds t (x :: log) org id ↔ Holds t log org id :=
  holds_cons_of (idle_records h org id x.res) (idle_marks h id)

theorem not_holds_mark (h : Op.marks id x.op = true) : ¬ Holds t (x :: log) org id := by
  intro hh
  have := hh.2 x List.mem_cons_self
  simp [h] at this

end

/-! ## The contract of a sender -/

/-- Nothing the task still has in its hands was delivered by it. -/
def Clear (t : Tag) (log : List (Entry calls)) : Prop :=
  ∀ org id, Holds t log org id → deliveries log id = 0

/-- Sending row `id`, with the outcome so far: the row is delivered only if it is `sent`. -/
structure Sending (t : Tag) (org : OrgId) (id : Uuid) (status : NotificationStatus)
    (log : List (Entry calls)) : Prop where
  holds : Holds t log org id
  others : ∀ org' id', id' ≠ id → Holds t log org' id' → deliveries log id' = 0
  outcome : status ≠ .sent → deliveries log id = 0

section
variable {t : Tag} {org : OrgId} {id : Uuid} {status : NotificationStatus}
  {log : List (Entry calls)} {x : Entry calls}

theorem Clear.idle (ho : x.op.idle = true) (h : Clear t log) : Clear t (x :: log) := by
  intro org id hh
  rw [deliveries_cons_of_not (idle_delivers ho id x.res)]
  exact h org id ((holds_cons_idle ho).mp hh)

theorem Sending.idle (ho : x.op.idle = true) (h : Sending t org id status log) :
    Sending t org id status (x :: log) where
  holds := (holds_cons_idle ho).mpr h.holds
  others := fun org' id' hne hh => by
    rw [deliveries_cons_of_not (idle_delivers ho id' x.res)]
    exact h.others org' id' hne ((holds_cons_idle ho).mp hh)
  outcome := fun hs => by
    rw [deliveries_cons_of_not (idle_delivers ho id x.res)]
    exact h.outcome hs

theorem Sending.clear (h : Sending t org id .failed log) : Clear t log := by
  intro org' id' hh
  by_cases hid : id' = id
  · subst hid
    exact h.outcome (by simp)
  · exact h.others org' id' hid hh

theorem Sending.recorded {me : Nat} {n : NewIncidentNotification} (h : Clear t log)
    (hq : n.status = .queued) (hfresh : ∀ x ∈ log, Op.delivers id x.op x.res = false ∧
      Op.marks id x.op = false) :
    Sending t n.org id .failed (⟨me, .store (.recordNotification n), .ok id⟩ :: log) where
  holds := by
    refine ⟨.inl ⟨_, List.mem_cons_self, recorded_queued hq⟩, fun x hx => ?_⟩
    rcases List.mem_cons.mp hx with rfl | hx
    · rfl
    · exact (hfresh x hx).2
  others := fun org' id' hne hh => by
    rw [deliveries_cons_of_not rfl]
    refine h org' id' ((holds_cons_of ?_ rfl).mp hh)
    simp [Op.records, answers, Ne.symm hne]
  outcome := fun _ => by
    rw [deliveries_cons_of_not rfl]
    exact deliveries_eq_zero_of fun x hx => (hfresh x hx).1

theorem Sending.retried (p : PendingNotification) :
    Sending (.item (.retry p)) p.org p.id .failed [] where
  holds := ⟨.inr ⟨p, rfl, rfl, rfl⟩, fun _ hx => absurd hx List.not_mem_nil⟩
  others := fun _ _ _ _ => rfl
  outcome := fun _ => rfl

theorem Sending.notify {me : Nat} {channel : NotificationChannel} {notice : IncidentNotice}
    {attempt : Int} {g : Option Nat} {r : Except String (Option String)}
    (h : Sending t org id .failed log) :
    Sending t org id (sendStatus r) (⟨me, .notify channel notice id attempt g, r⟩ :: log) where
  holds := (holds_cons_of rfl rfl).mpr h.holds
  others := fun org' id' hne hh => by
    rw [deliveries_cons_of_not (by simp [Op.delivers, Ne.symm hne])]
    exact h.others org' id' hne ((holds_cons_of rfl rfl).mp hh)
  outcome := fun hs => by
    cases r with
    | ok receipt => exact absurd rfl hs
    | error err =>
      rw [deliveries_cons_of_not (by simp [Op.delivers])]
      exact h.outcome (by simp)

theorem Sending.marked {me : Nat} {oc : NotificationOutcome} {r : Except StoreError Unit}
    (h : Sending t org id status log) :
    Clear t (⟨me, .store (.markNotification org id oc), r⟩ :: log) := by
  intro org' id' hh
  have hne : id' ≠ id := by
    rintro rfl
    exact not_holds_mark (by simp [Op.marks]) hh
  rw [deliveries_cons_of_not rfl]
  exact h.others org' id' hne ((holds_cons_of rfl (by simp [Op.marks, Ne.symm hne])).mp hh)

end

section
variable {lower : String → String}

/-- A task sends a row in its hands that it has not delivered, and marks a row in its hands,
as `sent` if it has delivered it.  It relies on nobody. -/
def sendContract (t : Tag) (me : Nat) : Contract (machine lower) Tag where
  rely := fun w w' => own me w'.log = own me w.log
  assume := fun o w r _ => ∀ org id, o.records org id r = true →
    ∀ x ∈ own me w.log, Op.delivers id x.op x.res = false ∧ Op.marks id x.op = false
  guar := fun o w _ _ =>
    (∀ channel notice id attempt g, o = .notify channel notice id attempt g →
      (∃ org, Holds t (own me w.log) org id) ∧ deliveries (own me w.log) id = 0) ∧
    ∀ org id oc, o = .store (.markNotification org id oc) →
      Holds t (own me w.log) org id ∧ (deliveries (own me w.log) id ≠ 0 → oc.status = .sent)
  rely_refl := fun _ => rfl
  rely_trans := fun h₁ h₂ => h₂.trans h₁

variable {t : Tag} {me : Nat} {org : OrgId} {id k : Uuid} {status : NotificationStatus}
  {w w' : World (machine lower) Tag} {log : List (Entry calls)}

theorem guar_idle {o : Op} {r : o.Res} (h : o.idle = true) :
    (sendContract t me).guar o w r w' := by
  constructor
  · rintro channel notice id attempt g rfl
    cases h
  · rintro org id oc rfl
    cases h

theorem own_call {o : Op} {c : Choice} {r : o.Res} (hc : w.call me o c = some (r, w')) :
    own me w'.log = ⟨me, o, r⟩ :: own me w.log := by
  rw [(world_call hc).2.2, own_cons_self]

theorem Clear.rely (hr : (sendContract t me).rely w w') (h : Clear t (own me w.log)) :
    Clear t (own me w'.log) := by
  have heq : own me w'.log = own me w.log := hr
  rw [heq]
  exact h

theorem Sending.rely (hr : (sendContract t me).rely w w')
    (h : Sending t org id status (own me w.log)) : Sending t org id status (own me w'.log) := by
  have heq : own me w'.log = own me w.log := hr
  rw [heq]
  exact h

/-! ## Sending one row -/

theorem QuietCall.idle {o : Op} (h : QuietCall org o) : o.idle = true := by
  cases h with
  | @read so h => cases so <;> first | rfl | cases h
  | own h => cases o <;> first | rfl | cases h
  | clear => rfl

theorem RestCall.idle {o : Op} (h : RestCall org k o) : o.idle = true := by
  cases h with
  | quiet h => exact h.idle
  | marker => rfl
  | _ => rfl

/-- A stretch of code that neither sends, nor marks, nor fails. -/
def Idles {α : Type} (x : Job α) : Prop := x.Sure Op.Honest fun o => Op.idle o = true

theorem idles_await {o : Op} (h : o.idle = true) : Idles (await o) :=
  ⟨h, fun r _ => ⟨r, rfl⟩⟩

theorem idles_ignore {o : StoreOp} (h : Op.idle (.store o) = true) : Idles (ignore (store o)) :=
  sure_bind (sure_attempt (Q := fun _ => True) ⟨h, fun r _ => by cases r <;> trivial⟩)
    fun _ => sure_pure

theorem pushAck_idles (wk : Worker) (channel : NotificationChannel) (notice : IncidentNotice) :
    Idles (wk.pushAck org channel notice) := by
  unfold Worker.pushAck
  split
  · exact sure_pure
  · refine sure_bind (sure_attempt (Q := fun _ => True) ⟨rfl, fun r _ => by cases r <;> trivial⟩)
      fun r => ?_
    split <;> exact sure_pure

theorem retryBackoff_idles (wk : Worker) (attempt : Int) : Idles (wk.retryBackoff attempt) := by
  unfold Worker.retryBackoff
  split
  · exact sure_pure
  · refine sure_bind (idles_await rfl) fun j => ?_
    exact sure_bind (idles_await rfl) fun t => sure_pure

theorem nextAttempt_idles (wk : Worker) (status : NotificationStatus) (attempt : Int)
    (error : Option String) : Idles (wk.nextAttempt status attempt error) := by
  unfold Worker.nextAttempt
  split
  · refine sure_bind (retryBackoff_idles wk attempt) fun r => ?_
    split
    · exact sure_pure
    · split
      · exact sure_pure
      · exact sure_bind (idles_await rfl) fun t => sure_pure
  · exact sure_pure

theorem recordChannelHealth_idles (channel : NotificationChannel) (status : NotificationStatus)
    (nextAttemptAt : Option Time) :
    Idles (Worker.recordChannelHealth org channel status nextAttemptAt) := by
  unfold Worker.recordChannelHealth
  split
  · exact sure_pure
  · split
    · exact idles_ignore rfl
    · exact idles_ignore rfl
    · exact sure_pure

theorem sentStamp_idles (status : NotificationStatus) : Idles (Worker.sentStamp status) := by
  unfold Worker.sentStamp
  split
  · exact sure_bind (idles_await rfl) fun _ => sure_pure
  · exact sure_pure

section
variable {α β : Type} {Q : Except StoreError β → World (machine lower) Tag → Prop}

theorem sending_idles {x : Job α} {f : α → Job β} (hx : Idles x)
    (h : Sending t org id status (own me w.log))
    (hf : ∀ a w, Sending t org id status (own me w.log) → (sendContract t me).wp me (f a) Q w) :
    (sendContract t me).wp me (x >>= f : Job β) Q w := by
  refine Contract.wp_andThen (Contract.wp_of_inv
    (J := fun w => Sending t org id status (own me w.log))
    (fun _ _ => Sending.rely) (fun o w₁ c r w₂ ho hJ hc _ => ?_)
    (fun r w₁ hr hJ => ?_) hx h)
  · refine ⟨Sys.call_honest (world_call hc).1, guar_idle ho, ?_⟩
    rw [own_call hc]
    exact hJ.idle ho
  · obtain ⟨a, rfl⟩ := hr
    exact hf a w₁ hJ

variable {channel : NotificationChannel} {notice : IncidentNotice} {attempt : Int}

theorem deliver_sends (wk : Worker) (h : Sending t org id .failed (own me w.log)) :
    (sendContract t me).wp me (wk.deliver org channel notice id attempt)
      (fun r w => ∃ a, r = .ok a ∧ Sending t org id a.1 (own me w.log)) w := by
  refine sending_idles (pushAck_idles wk channel notice) h fun g w₁ h₁ => ?_
  intro w₂ hr c r w₃ hc _
  have h₂ := h₁.rely hr
  refine ⟨⟨?_, fun _ _ _ ho => by (cases ho)⟩, ?_⟩
  · rintro _ _ _ _ _ ho
    cases ho
    exact ⟨⟨org, h₂.holds⟩, h₂.outcome (by simp)⟩
  · have h₃ : Sending t org id (sendStatus r) (⟨me, .notify channel notice id attempt g, r⟩ :: own me w₂.log) := h₂.notify
    rw [← own_call hc] at h₃
    cases r with
    | ok receipt => exact fun w' hr' => ⟨_, rfl, h₃.rely hr'⟩
    | error err => exact fun w' hr' => ⟨_, rfl, h₃.rely hr'⟩

theorem sending_deliver (wk : Worker)
    {f : NotificationStatus × Option String × Option String → Job β}
    (h : Sending t org id .failed (own me w.log))
    (hf : ∀ r w, Sending t org id r.1 (own me w.log) → (sendContract t me).wp me (f r) Q w) :
    (sendContract t me).wp me
      (wk.deliverVerified org channel notice id attempt >>= f : Job β) Q w := by
  unfold Worker.deliverVerified
  split
  · exact hf _ w h
  · refine Contract.wp_andThen (Contract.wp_mono (fun r w₁ hr => ?_) (deliver_sends wk h))
    obtain ⟨a, rfl, ha⟩ := hr
    exact hf a w₁ ha

theorem mark_clear {oc : NotificationOutcome} (h : Sending t org id oc.status (own me w.log)) :
    (sendContract t me).wp me (store (.markNotification org id oc))
      (fun _ w => Clear t (own me w.log)) w := by
  intro w₁ hr c r w₂ hc _
  have h₁ := h.rely hr
  have hclear : Clear t (own me w₂.log) := own_call hc ▸ h₁.marked
  constructor
  · refine ⟨fun _ _ _ _ _ ho => by (cases ho), fun _ _ _ ho => ?_⟩
    cases ho
    refine ⟨h₁.holds, fun hd => ?_⟩
    by_contra hs
    exact hd (h₁.outcome hs)
  · exact fun w' hr' => hclear.rely hr'

theorem sendAndMark_clear (wk : Worker) (h : Sending t org id .failed (own me w.log)) :
    (sendContract t me).wp me (wk.sendAndMark org channel notice id attempt)
      (fun _ w => Clear t (own me w.log)) w := by
  refine sending_deliver wk h fun r w₁ h₁ => ?_
  refine sending_idles (nextAttempt_idles wk _ _ _) h₁ fun nextAttemptAt w₂ h₂ => ?_
  refine sending_idles (recordChannelHealth_idles channel _ _) h₂ fun _ w₃ h₃ => ?_
  refine sending_idles (sentStamp_idles _) h₃ fun sentAt w₄ h₄ => ?_
  refine Contract.wp_andThen (Contract.wp_mono (fun r w₅ h₅ => ?_) (mark_clear h₄))
  cases r with
  | ok a => exact fun w' hr => Clear.rely hr h₅
  | error e => exact fun w' hr => Clear.rely hr h₅

end

/-! ## Whole tasks -/

/-- Keeping clear, whichever way the code ends. -/
def clearLogic (lower : String → String) (t : Tag) (me : Nat) (org : OrgId) (k : Uuid) :
    PageLogic org k :=
  keeps (sendContract t me : Contract (machine lower) Tag) me
    (fun w => Clear t (own me w.log)) (fun _ _ => Clear.rely)
    fun o w c r w' ho h hc _ => by
      have hidle : o.idle = true := by
        rcases ho with ho | rfl | rfl
        · exact ho.idle
        · rfl
        · rfl
      exact ⟨guar_idle hidle, own_call hc ▸ h.idle hidle⟩

theorem pageChannels_clear (wk : Worker) (notice : IncidentNotice) (reason : NotificationReason)
    (level : Int) : ∀ (targets : List PageTarget) (paged : Paged),
      (clearLogic lower t me org k).Runs (wk.pageChannels org k notice reason level targets paged)
  | [], paged => runs_pure
  | target :: rest, paged => by
    have ih := pageChannels_clear wk notice reason level rest
    unfold Worker.pageChannels
    refine runs_read rfl fun r _ => ?_
    split
    · exact ih paged
    · next channel _ =>
      split
      · exact ih paged
      · intro w hclear w₁ hr c r w₂ hc ha
        have h₁ := Clear.rely hr hclear
        refine ⟨⟨fun _ _ _ _ _ ho => by (cases ho), fun _ _ _ ho => by (cases ho)⟩, ?_⟩
        cases r with
        | error e =>
          have h₂ : Clear t (own me w₂.log) := by
            intro org' id' hh
            rw [own_call hc] at hh ⊢
            rw [deliveries_cons_of_not rfl]
            refine h₁ org' id' ((holds_cons_of ?_ rfl).mp hh)
            simp [Op.records, answers]
          exact fun w' hr' => ⟨trivial, h₂.rely hr'⟩
        | ok id =>
          have h₂ : Sending t org id .failed (own me w₂.log) := by
            rw [own_call hc]
            exact .recorded (n := queuedRow org k reason level target channel) h₁ rfl
              (ha org id (recorded_queued rfl))
          refine Contract.wp_andThen (Contract.wp_mono (fun r w₃ h₃ => ?_)
            (sendAndMark_clear wk h₂))
          cases r with
          | ok status => exact ih _ w₃ h₃
          | error e => exact fun w' hr' => ⟨trivial, Clear.rely hr' h₃⟩

theorem clearLogic_canPage (wk : Worker) (reason : NotificationReason) :
    (clearLogic lower t me org k).CanPage wk reason :=
  fun notice level targets paged _ _ => pageChannels_clear wk notice reason level targets paged

theorem retryOne_clear (wk : Worker) (p : PendingNotification)
    (h : Sending t p.org p.id .failed (own me w.log)) :
    (sendContract t me).wp me (wk.retryOne p) (fun _ w => Clear t (own me w.log)) w := by
  have hrebuild : All Op.Honest (fun o => Op.idle o = true) (fun _ => True) (wk.rebuildFor p) := by
    unfold Worker.rebuildFor
    split
    · exact all_weaken (rebuildNotice_holds wk p.incidentId _ p.reason
        (L := quietFootprint p.org _ fun _ => QuietCall.idle)) fun _ _ => trivial
    · exact all_pure trivial
  refine Contract.wp_andThen (Contract.wp_of_inv
    (J := fun w => Sending t p.org p.id .failed (own me w.log))
    (fun _ _ => Sending.rely) (fun o w₁ c r w₂ ho hJ hc _ => ?_)
    (fun r w₁ _ hJ => ?_) hrebuild h)
  · exact ⟨Sys.call_honest (world_call hc).1, guar_idle ho, own_call hc ▸ hJ.idle ho⟩
  · cases r with
    | error e => exact fun w' hr => hJ.clear.rely hr
    | ok rebuilt =>
      dsimp only
      split
      · refine sending_idles (retryBackoff_idles wk _) hJ fun nextAttemptAt w₂ h₂ => ?_
        exact mark_clear h₂
      · split
        · exact mark_clear ⟨hJ.holds, hJ.others, fun _ => hJ.outcome (by simp)⟩
        · refine Contract.wp_andThen (Contract.wp_mono (fun r w₂ h₂ => ?_)
            (sendAndMark_clear wk hJ))
          cases r with
          | ok a => exact fun w' hr => Clear.rely hr h₂
          | error e => exact fun w' hr => Clear.rely hr h₂

theorem code_clear (wk : Worker) (t : Tag) (h : own me w.log = []) :
    (sendContract t me).wp me (wk.code t) (fun _ w => Clear t (own me w.log)) w := by
  have hclear : (∀ p, t ≠ .item (.retry p)) → Clear t (own me w.log) := by
    intro hne org id hh
    rw [h] at hh ⊢
    rfl
  have hpage : ∀ {org : OrgId} {k : Uuid} {x : Job Unit}, (∀ p, t ≠ .item (.retry p)) →
      (clearLogic lower t me org k).Runs x →
      (sendContract t me).wp me x.detach (fun _ w => Clear t (own me w.log)) w :=
    fun hne hx => Contract.wp_detach (Contract.wp_mono
      (fun _ _ h w' hr => Clear.rely hr h.2) (hx w (hclear hne)))
  have hidle : (∀ p, t ≠ .item (.retry p)) → (∀ o, t.Call o → o.idle = true) →
      (sendContract t me).wp me (wk.code t) (fun _ w => Clear t (own me w.log)) w := by
    intro hne hall
    refine Contract.wp_of_inv (J := fun w => Clear t (own me w.log)) (fun _ _ => Clear.rely)
      (fun o w₁ c r w₂ ho hJ hc _ => ?_) (fun _ _ _ hJ => hJ) (code_all wk t) (hclear hne)
    exact ⟨Sys.call_honest (world_call hc).1, guar_idle (hall o ho),
      own_call hc ▸ hJ.idle (hall o ho)⟩
  cases t with
  | signal sig =>
    exact hpage (fun _ h => by (cases h)) (pageWith_runs wk (fun _ => clearLogic_canPage wk _) .apply)
  | item it =>
    cases it with
    | reconcile d =>
      exact hpage (fun _ h => by (cases h))
        (pageWith_runs wk (fun _ => clearLogic_canPage wk _) .apply)
    | release d =>
      exact hpage (fun _ h => by (cases h)) (releaseOne_runs wk d fun _ _ => clearLogic_canPage wk _)
    | escalate d =>
      exact hpage (fun _ h => by (cases h)) (escalateOne_runs wk d (clearLogic_canPage wk _))
    | renotify d =>
      exact hpage (fun _ h => by (cases h)) (renotifyOne_runs wk d (clearLogic_canPage wk _))
    | retry p =>
      refine Contract.wp_detach (Contract.wp_mono (fun _ _ h w' hr => Clear.rely hr h)
        (retryOne_clear wk p ?_))
      rw [h]
      exact .retried p
    | pollAck a =>
      refine hidle (fun _ h => by (cases h)) fun o ho => ?_
      cases ho with
      | quiet h => exact h.idle
      | acknowledge => rfl
      | acked => rfl
  | request r =>
    refine hidle (fun _ h => by (cases h)) fun o ho => ?_
    cases o with
    | store so => cases so <;> first | rfl | cases ho
    | _ => first | rfl | cases ho

end

end Uptimepage
