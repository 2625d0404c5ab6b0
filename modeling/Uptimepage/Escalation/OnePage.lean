import Uptimepage.Escalation.Locks
import Uptimepage.Escalation.Sending

/-!
# One page a channel

`open_episode` has no flag that says an outage was paged: it reads the incident's ledger
under the page lock and stops when `openEpisodeActive` finds a page there.  Over any run in
which an incident is paged by Opened signals and reconcile sweeps, with no policy bound,
this is enough: `one_page_per_channel`.
-/

namespace Uptimepage

open Async Async.Fallible Job QuietLogic

/-- The paging of one incident from a row id on. -/
structure Episode where
  org : OrgId
  incidentId : Uuid
  since : Uuid

namespace Episode

variable (p : Episode)

def Row (n : NotificationRow) : Prop :=
  n.org = p.org ∧ n.incidentId = p.incidentId ∧ p.since ≤ n.id

def Page (n : NotificationRow) : Prop := p.Row n ∧ isDamperMarker n.transport = false

/-- The channel has no row yet. -/
def Untold (db : Db) (c : Uuid) : Prop :=
  ∀ n ∈ db.notifications, p.Row n → n.channelId ≠ some c

/-- It is a row of the channel. -/
def tells (c : Uuid) (n : NotificationRow) : Bool :=
  n.org == p.org && n.incidentId == p.incidentId && decide (p.since ≤ n.id) && n.channelId == some c

def rowsOf (db : Db) (c : Uuid) : List NotificationRow := db.notifications.filter (p.tells c)

theorem tells_iff {c : Uuid} {n : NotificationRow} :
    p.tells c n = true ↔ p.Row n ∧ n.channelId = some c := by
  simp only [tells, Row, Bool.and_eq_true, beq_iff_eq, decide_eq_true_eq, and_assoc]

/-- Task `me` recorded the row. -/
def By (me : Nat) (log : List (Entry calls)) (n : NotificationRow) : Prop :=
  ∃ x ∈ log, x.task = me ∧ Op.records p.org n.id x.op x.res = true

/-- Every page of the episode is the task's own. -/
def Own {lower : String → String} (me : Nat) (w : World (machine lower) Tag) : Prop :=
  ∀ n ∈ w.store.db.notifications, p.Page n → p.By me w.log n

/-- The ledger as the run has left it: the rows from before are older than the run, and the
episode's are Opened rows, with a channel's transport where they have a channel. -/
structure Ledger (clock : Time) (db : Db) : Prop where
  old : ∀ n ∈ db.notifications, n.id < p.since → n.createdAt ≤ clock
  row : ∀ n ∈ db.notifications, p.Row n → clock < n.createdAt ∧ n.reason = .opened ∧
    (n.channelId.isSome → isDamperMarker n.transport = false)

def Records (o : Op) (n : NewIncidentNotification) : Prop :=
  o = .store (.recordNotification n) ∧ n.org = p.org ∧ n.incidentId = p.incidentId

end Episode

namespace Db

variable {p : Episode} {clock now : Time} {db : Db} {lower : String → String} {o : StoreOp}

variable {n n' : NotificationRow}

theorem NoteStep.channelId (h : NoteStep o n n') :
    n'.channelId = n.channelId ∨ n'.channelId = none := by
  cases h with
  | unlinked _ => exact .inr rfl
  | _ => exact .inl rfl

theorem mem_exec_notifications (h : n' ∈ (db.exec lower now o).2.notifications) :
    (∃ n ∈ db.notifications, NoteStep o n n') ∨
      ∃ m, o = .recordNotification m ∧ n' = db.recordedRow now m := by
  rcases exec_notifications lower now o db with ⟨m, rfl, heq⟩ | ⟨f, heq, hstep⟩
  · rw [heq] at h
    rcases List.mem_append.mp h with h | h
    · exact .inl ⟨n', h, .same⟩
    · exact .inr ⟨m, rfl, by simpa using h⟩
  · rw [heq] at h
    obtain ⟨n, hn, rfl⟩ := List.mem_map.mp h
    exact .inl ⟨n, hn, hstep n⟩

theorem NoteStep.row (h : NoteStep o n n') : p.Row n' ↔ p.Row n := by
  obtain ⟨hid, horg, hinc, -⟩ := h.keeps
  simp only [Episode.Row, hid, horg, hinc]

theorem NoteStep.page (h : NoteStep o n n') : p.Page n' ↔ p.Page n := by
  simp only [Episode.Page, h.row, h.keeps.2.2.2.2.1]

theorem no_page (h : p.Ledger clock db)
    (hidle : openEpisodeActive (db.notificationsFor p.org p.incidentId) = false) :
    ∀ n ∈ db.notifications, ¬ p.Page n := by
  intro n hn hpage
  obtain ⟨hnew, hreason, -⟩ := h.row n hn hpage.1
  have hactive : openEpisodeActive (db.notificationsFor p.org p.incidentId) = true := by
    refine active_iff.2 ⟨n, hn, ⟨hpage.1.1, hpage.1.2.1⟩, ⟨hpage.2, by rw [hreason]; rfl⟩, ?_⟩
    intro m hm horg hinc hres
    have hold : m.id < p.since := by
      by_contra hge
      have := (h.row m hm ⟨horg, hinc, Nat.le_of_not_lt hge⟩).2.1
      rw [this] at hres
      cases hres
    exact lt_of_le_of_lt (h.old m hm hold) hnew
  rw [hidle] at hactive
  cases hactive

end Db

/-! ## What a handling does -/

/-- The task handles an Opened signal, or a reconcile, of the incident. -/
def Tag.opens (p : Episode) : Tag → Bool
  | .signal sig => sig.org == p.org && sig.incidentId == p.incidentId && sig.reason == .opened
  | .item (.reconcile d) => d.org == p.org && d.id == p.incidentId
  | _ => false

section
variable {lower : String → String}

/-- While a task holds the incident's lock its pages stay the only ones and no channel is
told by others; a row of the incident is recorded under the lock, by a task whose pages are
the only ones, and only for a channel that has none. -/
def onceContract (p : Episode) (clock : Time) (t : Tag) (me : Nat) :
    Contract (machine lower) Tag where
  rely := fun w w' => w.store.locks (pageLock p.incidentId) = some me →
    w'.store.locks (pageLock p.incidentId) = some me ∧
      (∀ c, p.Untold w.store.db c → p.Untold w'.store.db c) ∧ (p.Own me w → p.Own me w')
  assume := fun o w _ _ => p.Ledger clock w.store.db ∧
    (t.opens p = true → ∀ tid, o = .store (.resolveForTarget p.org tid) →
      w.store.db.resolveForTarget p.org tid = none)
  guar := fun o w _ _ => ∀ n, p.Records o n →
    w.store.locks (pageLock p.incidentId) = some me ∧ p.Own me w ∧ n.reason = .opened ∧
      ∀ c, n.channelId = some c → p.Untold w.store.db c ∧ isDamperMarker n.transport = false
  rely_refl := fun _ h => ⟨h, fun _ h => h, fun h => h⟩
  rely_trans := fun h₁ h₂ h =>
    ⟨(h₂ (h₁ h).1).1, fun c hc => (h₂ (h₁ h).1).2.1 c ((h₁ h).2.1 c hc),
      fun ho => (h₂ (h₁ h).1).2.2 ((h₁ h).2.2 ho)⟩

/-- Under the lock: the pages so far are the task's own, and the channels `S` have none. -/
structure Round (p : Episode) (me : Nat) (S : Uuid → Prop) (w : World (machine lower) Tag) :
    Prop where
  held : w.store.locks (pageLock p.incidentId) = some me
  own : p.Own me w
  untold : ∀ c, S c → p.Untold w.store.db c

variable {p : Episode} {clock : Time} {t : Tag} {me : Nat} {S S' : Uuid → Prop}
  {w w' : World (machine lower) Tag}

theorem Round.mono (h : Round p me S w) (hS : ∀ c, S' c → S c) : Round p me S' w :=
  ⟨h.held, h.own, fun c hc => h.untold c (hS c hc)⟩

theorem Round.rely (hr : (onceContract p clock t me).rely w w') (h : Round p me S w) :
    Round p me S w' :=
  ⟨(hr h.held).1, (hr h.held).2.2 h.own, fun c hc => (hr h.held).2.1 c (h.untold c hc)⟩

variable {o : Op} {i : Nat} {c : Choice} {so : StoreOp} {org : OrgId}

theorem guar_of_not_records {r : o.Res} (h : ∀ n, ¬ p.Records o n) :
    (onceContract p clock t me).guar o w r w' := fun n hn => absurd hn (h n)

theorem call_notifications {r : o.Res} (h : w.call i o c = some (r, w')) {n' : NotificationRow}
    (hn : n' ∈ w'.store.db.notifications) :
    (∃ so, ∃ n ∈ w.store.db.notifications, Db.NoteStep so n n') ∨
      ∃ m, (⟨i, o, r⟩ : Entry calls) =
          ⟨i, .store (.recordNotification m), (.ok w.store.db.nextId : Except StoreError Uuid)⟩ ∧
        n' = w.store.db.recordedRow (w.store.tick c) m := by
  obtain ⟨hcall, -, -⟩ := world_call h
  rcases Sys.call_db hcall with heq | ⟨so, rfl, hf, heq⟩
  · rw [heq] at hn
    exact .inl ⟨.clearReceipt n'.org n'.id, n', hn, .same⟩
  · rw [heq] at hn
    rcases Db.mem_exec_notifications hn with ⟨n, hn, hstep⟩ | ⟨m, rfl, rfl⟩
    · exact .inl ⟨so, n, hn, hstep⟩
    · refine .inr ⟨m, ?_, rfl⟩
      rcases Sys.call_store hcall with ⟨hfails, -⟩ | ⟨-, rfl, -⟩
      · rw [hf] at hfails
        cases hfails
      · rfl

theorem Episode.Untold.call {r : o.Res} {cid : Uuid} (h : p.Untold w.store.db cid)
    (hc : w.call i o c = some (r, w')) (ho : ∀ n, p.Records o n → n.channelId ≠ some cid) :
    p.Untold w'.store.db cid := by
  intro n' hn' hrow
  rcases call_notifications hc hn' with ⟨so, n, hn, hstep⟩ | ⟨m, hm, rfl⟩
  · rcases hstep.channelId with heq | heq
    · rw [heq]
      exact h n hn (hstep.row.1 hrow)
    · rw [heq]
      simp
  · exact ho m ⟨congrArg Entry.op hm, hrow.1, hrow.2.1⟩

theorem Episode.Own.call {r : o.Res} (h : p.Own me w) (hc : w.call i o c = some (r, w'))
    (ho : ∀ n, p.Records o n → isDamperMarker n.transport = false →
      i = me ∧ n.status = .queued) : p.Own me w' := by
  obtain ⟨-, -, hlog⟩ := world_call hc
  intro n' hn' hpage
  rcases call_notifications hc hn' with ⟨so, n, hn, hstep⟩ | ⟨m, hm, rfl⟩
  · obtain ⟨x, hx, htask, hrec⟩ := h n hn (hstep.page.1 hpage)
    refine ⟨x, ?_, htask, ?_⟩
    · rw [hlog]
      exact List.mem_cons_of_mem _ hx
    · rw [hstep.keeps.1]
      exact hrec
  · obtain ⟨rfl, hqueued⟩ := ho m ⟨congrArg Entry.op hm, hpage.1.1, hpage.1.2.1⟩ hpage.2
    have horg : m.org = p.org := hpage.1.1
    refine ⟨⟨i, o, r⟩, ?_, rfl, ?_⟩
    · rw [hlog]
      exact List.mem_cons_self
    · rw [hm, ← horg]
      exact recorded_queued hqueued

theorem Round.call {r : o.Res} (h : Round p me S w) (hc : w.call me o c = some (r, w'))
    (ho : ∀ n, ¬ p.Records o n) (hun : ∀ sh, o ≠ .unlock sh) :
    Round p me S w' :=
  ⟨lock_call hc hun _ h.held, h.own.call hc fun n hn => absurd hn (ho n),
    fun c hS => (h.untold c hS).call hc fun n hn => absurd hn (ho n)⟩

theorem not_records (h : ∀ n, so ≠ .recordNotification n) (n : NewIncidentNotification) :
    ¬ p.Records (.store so) n := by
  rintro ⟨heq, -⟩
  cases heq
  exact h n rfl

theorem QuietCall.not_records (h : QuietCall org o) (n : NewIncidentNotification) :
    ¬ p.Records o n := by
  rintro ⟨rfl, -⟩
  cases h with
  | read h => cases h
  | own h => cases h

theorem QuietCall.not_unlock (h : QuietCall org o) (sh : Nat) : o ≠ .unlock sh := by
  rintro rfl
  cases h with
  | own h => cases h

/-- Staying in a round is a logic of quiet code. -/
def rounds (lower : String → String) (p : Episode) (clock : Time) (t : Tag) (me : Nat)
    (S : Uuid → Prop) : QuietLogic p.org :=
  keepsQuiet (onceContract p clock t me : Contract (machine lower) Tag) me (Round p me S)
    (fun _ _ => Round.rely) fun _ _ _ _ _ ho h hc _ =>
      ⟨guar_of_not_records ho.not_records, h.call hc ho.not_records ho.not_unlock⟩

theorem rounds_store (h : ∀ n, so ≠ .recordNotification n) :
    (rounds lower p clock t me S).Runs (store so) := by
  intro w hw w₁ hr c r w₂ hc _
  have hw₂ : Round p me S w₂ := (hw.rely hr).call hc (not_records h) fun _ h => by cases h
  refine ⟨guar_of_not_records (not_records h), fun w' hr' => ⟨?_, hw₂.rely hr'⟩⟩
  cases r <;> trivial

theorem rounds_canSend (reason : NotificationReason) :
    (rounds lower p clock t me S).CanSend p.incidentId reason where
  notify := fun _ _ _ w hw w₁ hr c r w₂ hc _ =>
    ⟨guar_of_not_records fun _ h => (by cases h.1), fun w' hr' => ⟨trivial,
      ((hw.rely hr).call hc (fun _ h => by cases h.1) fun _ h => by cases h).rely hr'⟩⟩
  mark := fun _ _ => rounds_store fun _ h => by cases h
  health := fun _ _ => rounds_store fun _ h => by cases h

variable {α β : Type} {Q : β → World (machine lower) Tag → Prop}

variable {R : α → Prop} {x : Job α} {f : Uuid → Job β}

theorem wpJob_rounds (hx : (rounds lower p clock t me S).Holds R x) (hw : Round p me S w) :
    wpJob (onceContract p clock t me) me x (fun a w => R a ∧ Round p me S w) w :=
  Contract.wp_mono (fun _ _ h _ ha => by subst ha; exact h) (hx w hw)

theorem wpJob_rounds_bind {f : α → Job β} (hx : (rounds lower p clock t me S).Holds R x)
    (hw : Round p me S w)
    (hf : ∀ a w', R a → Round p me S w' → wpJob (onceContract p clock t me) me (f a) Q w') :
    wpJob (onceContract p clock t me) me (x >>= f) Q w :=
  wpJob_bind (wpJob_mono (wpJob_rounds hx hw) fun a w' h => hf a w' h.1 h.2)

theorem wpJob_marker {transport : Transport} (hmarker : isDamperMarker transport = true)
    (hw : Round p me S w)
    (hf : ∀ a w', Round p me S w' → wpJob (onceContract p clock t me) me (f a) Q w') :
    wpJob (onceContract p clock t me) me
      (store (.recordNotification (markerRow p.org p.incidentId transport .opened)) >>= f) Q w := by
  refine wpJob_store fun w₁ c r w₂ hr hc _ => ?_
  have hw₁ := hw.rely hr
  refine ⟨?_, fun a _ => hf a w₂ ⟨lock_call hc (fun _ h => by cases h) _ hw₁.held, ?_, ?_⟩⟩
  · rintro n ⟨heq, -⟩
    cases heq
    exact ⟨hw₁.held, hw₁.own, rfl, fun c hc => by cases hc⟩
  · refine hw₁.own.call hc ?_
    rintro n ⟨heq, -⟩ hpage
    cases heq
    exact absurd hmarker (by rw [show isDamperMarker transport = false from hpage]; simp)
  · intro c hS
    refine (hw₁.untold c hS).call hc ?_
    rintro n ⟨heq, -⟩
    cases heq
    exact fun h => by cases h

theorem wpJob_record {level : Int} {tgt : PageTarget} {channel : NotificationChannel}
    (hw : Round p me S w) (hS : S tgt.channelId)
    (hf : ∀ a w', Round p me (fun c => S c ∧ c ≠ tgt.channelId) w' →
      wpJob (onceContract p clock t me) me (f a) Q w') :
    wpJob (onceContract p clock t me) me (store (.recordNotification
      (queuedRow p.org p.incidentId .opened level tgt channel)) >>= f) Q w := by
  refine wpJob_store fun w₁ c r w₂ hr hc _ => ?_
  have hw₁ := hw.rely hr
  refine ⟨?_, fun a _ => hf a w₂ ⟨lock_call hc (fun _ h => by cases h) _ hw₁.held, ?_, ?_⟩⟩
  · rintro n ⟨heq, -⟩
    cases heq
    refine ⟨hw₁.held, hw₁.own, rfl, fun c hc => ?_⟩
    cases hc
    exact ⟨hw₁.untold _ hS, rfl⟩
  · refine hw₁.own.call hc ?_
    rintro n ⟨heq, -⟩ -
    cases heq
    exact ⟨rfl, rfl⟩
  · rintro c ⟨hc₁, hne⟩
    refine (hw₁.untold c hc₁).call hc ?_
    rintro n ⟨heq, -⟩ hcid
    cases heq
    exact hne (Option.some.inj hcid).symm

theorem pageChannels_once (wk : Worker) {notice : IncidentNotice} (level : Int)
    (hid : notice.incidentId = p.incidentId) (hreason : notice.reason = .opened) :
    ∀ (targets : List PageTarget) (paged : Paged) {w : World (machine lower) Tag},
      (targets.map (·.channelId)).Nodup → Round p me (· ∈ targets.map (·.channelId)) w →
      wpJob (onceContract p clock t me) me
        (wk.pageChannels p.org p.incidentId notice .opened level targets paged)
        (fun _ w => Round p me (fun _ => False) w) w
  | [], _, _, _, hw => wpJob_pure fun _ hr => (hw.mono fun _ h => h.elim).rely hr
  | tgt :: rest, paged, w, hnodup, hw => by
    obtain ⟨hnot, hnodup⟩ := List.nodup_cons.mp hnodup
    have ih := fun paged {w} => pageChannels_once wk level hid hreason rest paged (w := w) hnodup
    have hrest : ∀ c, c ∈ rest.map (·.channelId) → c ∈ (tgt :: rest).map (·.channelId) :=
      fun _ h => List.mem_cons_of_mem _ h
    unfold Worker.pageChannels
    refine wpJob_rounds_bind ((rounds lower p clock t me _).store (.read rfl)) hw
      fun r w₁ hr hw₁ => ?_
    split
    · exact ih paged (hw₁.mono hrest)
    · next channel =>
      split
      · exact ih paged (hw₁.mono hrest)
      · refine wpJob_record hw₁ (List.mem_cons_self) fun id w₂ hw₂ => ?_
        have hw₂' : Round p me (· ∈ rest.map (·.channelId)) w₂ := by
          refine hw₂.mono fun c hc => ⟨hrest c hc, ?_⟩
          rintro rfl
          exact hnot hc
        refine wpJob_rounds_bind (sendAndMark_runs wk (rounds_canSend .opened) id 1
          (hr channel rfl).1 hid hreason) hw₂' fun status w₃ _ hw₃ => ?_
        exact ih _ hw₃

theorem foldl_contains_nodup : ∀ (auto ids : List Uuid), ids.Nodup →
    (auto.foldl (fun ids id => if ids.contains id then ids else ids ++ [id]) ids).Nodup
  | [], _, h => h
  | a :: rest, ids, h => by
    rw [List.foldl_cons]
    refine foldl_contains_nodup rest _ ?_
    split
    · exact h
    · next hnot =>
      have hnot' : a ∉ ids := by simpa using hnot
      exact List.nodup_append.mpr ⟨h, List.nodup_singleton a, fun x hx y hy hxy => hnot' (by
        rw [List.mem_singleton] at hy
        rw [← hy, ← hxy]
        exact hx)⟩

theorem pagingChannelIds_nodup {L : QuietLogic p.org} (target : Target) :
    L.Holds (fun ids => ids.Nodup) (pagingChannelIds p.org target) :=
  L.bind (L.store (.read rfl)) fun auto _ =>
    L.pure (foldl_contains_nodup auto _ target.alerts.nodup)

section
variable (wk : Worker) {incident : OpsIncident} (target : Target)
  (hid : incident.id = p.incidentId)
include hid

theorem openFlat_once {notice : IncidentNotice} (hnotice : notice.incidentId = p.incidentId)
    (hreason : notice.reason = .opened) (hw : Round p me (fun _ => True) w) :
    wpJob (onceContract p clock t me) me (wk.openFlat p.org incident target notice .opened)
      (fun _ _ => True) w := by
  refine wpJob_rounds_bind (pagingChannelIds_nodup target) hw fun ids w₁ hnodup hw₁ => ?_
  have hids : (channelTargets ids).map (·.channelId) = ids := by
    simp [channelTargets, Function.comp_def]
  rw [hid]
  refine wpJob_bind (wpJob_mono (pageChannels_once wk _ hnotice hreason _ _ (hids.symm ▸ hnodup)
    (hw₁.mono fun _ _ => trivial)) fun paged w₂ hw₂ => ?_)
  have hlog : (rounds lower p clock t me fun _ => False).Runs
      (logPaged p.org p.incidentId .opened paged.delivered) := by
    unfold logPaged
    split
    · exact runs_pure
    · exact rounds_store fun _ h => by cases h
  refine wpJob_rounds_bind hlog hw₂ fun _ w₃ _ hw₃ => ?_
  split
  · exact wpJob_marker rfl hw₃ fun _ _ _ => wpJob_pure fun _ _ => trivial
  · exact wpJob_pure fun _ _ => trivial

theorem openDestination_once (ht : t.opens p = true) (note : Option String)
    (hw : Round p me (fun _ => True) w) :
    wpJob (onceContract p clock t me) me (wk.openDestination p.org incident target .opened note)
      (fun _ _ => True) w := by
  refine wpJob_store fun w₁ c r w₂ hr hc ha => ?_
  have hno : ∀ n, ¬ p.Records (.store (.resolveForTarget p.org target.id)) n :=
    not_records fun _ h => by cases h
  refine ⟨guar_of_not_records hno, fun a hok => ?_⟩
  have hw₂ : Round p me (fun _ => True) w₂ :=
    (hw.rely hr).call hc hno fun _ h => by cases h
  subst hok
  obtain ⟨hexec, -, -⟩ := store_ok hc
  have hnone : a = none := by
    rw [← ha.2 ht target.id rfl]
    exact (Except.ok.inj (congrArg Prod.fst hexec)).symm
  subst hnone
  exact openFlat_once wk target hid hid rfl hw₂

theorem openDamped_once (ht : t.opens p = true) (damper : Damper)
    (hw : Round p me (fun _ => True) w) :
    wpJob (onceContract p clock t me) me (wk.openDamped p.org incident target .opened damper)
      (fun _ _ => True) w := by
  unfold Worker.openDamped
  split
  · refine wpJob_rounds_bind (flapState_runs wk target) hw fun s w₁ _ hw₁ => ?_
    split
    · exact openDestination_once wk target hid ht none hw₁
    · refine wpJob_rounds_bind (rounds_store fun _ h => by cases h) hw₁ fun _ w₂ _ hw₂ => ?_
      exact openDestination_once wk target hid ht _ hw₂
    · rw [hid]
      refine wpJob_marker rfl hw₁ fun _ w₂ hw₂ => ?_
      exact wpJob_mono (wpJob_rounds (rounds_store fun _ h => by cases h) hw₂) fun _ _ _ => trivial
  · exact openDestination_once wk target hid ht none hw

theorem openEpisode_once (ht : t.opens p = true) (damper : Damper)
    (hheld : w.store.locks (pageLock p.incidentId) = some me) :
    wpJob (onceContract p clock t me) me (wk.openEpisode p.org incident target .opened damper)
      (fun _ _ => True) w := by
  refine wpJob_store fun w₁ c r w₂ hr hc ha => ?_
  have hno : ∀ n, ¬ p.Records (.store (.notificationsFor p.org incident.id)) n :=
    not_records fun _ h => by cases h
  refine ⟨guar_of_not_records hno, fun already hok => ?_⟩
  have hheld₂ := lock_call hc (fun _ h => by cases h) _ (hr hheld).1
  subst hok
  obtain ⟨hexec, -, -⟩ := store_ok hc
  have hread : w₁.store.db.notificationsFor p.org incident.id = already :=
    Except.ok.inj (congrArg Prod.fst hexec)
  have hsame : w₂.store.db = w₁.store.db := (congrArg Prod.snd hexec).symm
  split
  · exact wpJob_pure fun _ _ => trivial
  · next hidle =>
    rw [← hread, hid, Bool.not_eq_true] at hidle
    have hnone := Db.no_page ha.1 hidle
    have hw₂ : Round p me (fun _ => True) w₂ := by
      refine ⟨hheld₂, fun n hn hpage => absurd hpage (hnone n (hsame ▸ hn)), fun c _ n hn hrow hcid => ?_⟩
      have hn₁ : n ∈ w₁.store.db.notifications := hsame ▸ hn
      exact hnone n hn₁ ⟨hrow, (ha.1.row n hn₁ hrow).2.2 (by simp [hcid])⟩
    split
    · exact wpJob_pure fun _ _ => trivial
    · refine wpJob_rounds_bind (maintenanceHolds_runs incident target) hw₂
        fun held w₃ _ hw₃ => ?_
      split
      · rw [hid]
        refine wpJob_marker rfl hw₃ fun _ w₄ hw₄ => ?_
        exact wpJob_mono (wpJob_rounds (rounds_store fun _ h => by cases h) hw₄) fun _ _ _ => trivial
      · exact openDamped_once wk target hid ht damper hw₃

end

theorem wpJob_held {so : StoreOp} {f : so.Ret → Job β} (ho : ∀ n, so ≠ .recordNotification n)
    (hheld : w.store.locks (pageLock p.incidentId) = some me)
    (hf : ∀ a w', so.Honest a → w'.store.locks (pageLock p.incidentId) = some me →
      wpJob (onceContract p clock t me) me (f a) Q w') :
    wpJob (onceContract p clock t me) me (store so >>= f) Q w := by
  refine wpJob_store fun w₁ c r w₂ hr hc _ => ⟨guar_of_not_records (not_records ho), fun a hok => ?_⟩
  subst hok
  exact hf a w₂ (store_ok hc).2.1 (lock_call hc (fun _ h => by cases h) _ (hr hheld).1)

theorem pageWith_once (wk : Worker) (ht : t.opens p = true) (w : World (machine lower) Tag) :
    wpJob (onceContract p clock t me) me (wk.pageWith p.org p.incidentId .opened .apply)
      (fun _ _ => True) w := by
  refine wpJob_locked (fun _ _ => guar_of_not_records fun _ h => by cases h.1)
    (fun _ _ => guar_of_not_records fun _ h => by cases h.1) fun w₂ hheld => ?_
  refine wpJob_held (fun _ h => by cases h) hheld fun r w₃ hr hheld => ?_
  split
  · exact wpJob_pure fun _ _ => trivial
  · next incident =>
    split
    · exact wpJob_pure fun _ _ => trivial
    · refine wpJob_held (fun _ h => by cases h) hheld fun _ w₄ _ hheld => ?_
      split
      · exact wpJob_pure fun _ _ => trivial
      · next target _ =>
        unfold Worker.pageTarget
        split
        · exact wpJob_pure fun _ _ => trivial
        · exact openEpisode_once wk target (hr incident rfl) ht .apply hheld

/-! ## Tasks -/

/-- The task pages the incident as an Opened signal or a reconcile does, or not at all. -/
def Tag.onlyOpens (p : Episode) : Tag → Bool
  | .signal sig => !(sig.org == p.org && sig.incidentId == p.incidentId) || sig.reason == .opened
  | .item (.release d) | .item (.escalate d) | .item (.renotify d) =>
    !(d.org == p.org && d.id == p.incidentId)
  | _ => true

theorem PageCall.not_records {org : OrgId} {k : Uuid} {R S : NotificationReason → Prop} {o : Op}
    (h : PageCall org k R S o) (hne : ¬ (org = p.org ∧ k = p.incidentId))
    (n : NewIncidentNotification) : ¬ p.Records o n := by
  rintro ⟨rfl, horg, hinc⟩
  cases h with
  | quiet h => exact h.not_records n ⟨rfl, horg, hinc⟩
  | record horg' hinc' => exact hne ⟨horg'.symm.trans horg, hinc'.symm.trans hinc⟩

theorem retryOne_not_records (wk : Worker) (q : PendingNotification) :
    All Op.Honest (fun o => ∀ n, ¬ p.Records o n) (fun _ => True) (wk.retryOne q) := by
  have hstore : ∀ so : StoreOp, (∀ n, so ≠ .recordNotification n) →
      All Op.Honest (fun o => ∀ n, ¬ p.Records o n) (fun _ => True) (store so) := fun so h =>
    all_weaken (all_store (not_records h)) fun _ _ => trivial
  refine retryOne_runs wk q (L := quietFootprint q.org _ fun _ ho => ho.not_records) ⟨?_, ?_, ?_⟩
  · intro channel notice id attempt g _ _ _
    have hnone : ∀ n, ¬ p.Records (.notify channel notice id attempt g) n := fun n hn => by
      cases hn.1
    exact all_await (P := fun o => ∀ n, ¬ p.Records o n) hnone
  · exact fun _ _ => hstore _ fun _ h => by cases h
  · exact fun _ _ => hstore _ fun _ h => by cases h

theorem code_once (wk : Worker) {t : Tag} (ht : t.onlyOpens p = true) (me : Nat)
    (w : World (machine lower) Tag) :
    (onceContract p clock t me).wp me (wk.code t) (fun _ _ => True) w := by
  have hothers : ∀ {org : OrgId} {k : Uuid} {R S : NotificationReason → Prop}
      {x : Prog calls Unit}, x.All Op.Honest (PageCall org k R S) (fun _ => True) →
      ¬ (org = p.org ∧ k = p.incidentId) →
      (onceContract p clock t me).wp me x (fun _ _ => True) w := fun hx hne =>
    wp_of_all hx fun _ _ _ _ ho => guar_of_not_records (ho.not_records hne)
  cases t with
  | signal sig =>
    by_cases hsig : sig.org = p.org ∧ sig.incidentId = p.incidentId
    · have hreason : sig.reason = .opened := by simpa [Tag.onlyOpens, hsig] using ht
      refine wpJob_detach ?_
      rw [Worker.page, hsig.1, hsig.2, hreason]
      exact pageWith_once wk (by simp [Tag.opens, hsig, hreason]) w
    · exact hothers (code_all wk (.signal sig)) hsig
  | item it =>
    cases it with
    | reconcile d =>
      by_cases hd : d.org = p.org ∧ d.id = p.incidentId
      · refine wpJob_detach ?_
        change wpJob _ _ (wk.page d.org d.id .opened) _ _
        rw [Worker.page, hd.1, hd.2]
        exact pageWith_once wk (by simp [Tag.opens, hd]) w
      · exact hothers (code_all wk (.item (.reconcile d))) hd
    | release d =>
      exact hothers (code_all wk (.item (.release d))) fun hd => by simp [Tag.onlyOpens, hd] at ht
    | escalate d =>
      exact hothers (code_all wk (.item (.escalate d))) fun hd => by simp [Tag.onlyOpens, hd] at ht
    | renotify d =>
      exact hothers (code_all wk (.item (.renotify d))) fun hd => by simp [Tag.onlyOpens, hd] at ht
    | retry q =>
      exact wp_of_all (all_detach (retryOne_not_records wk q)) fun _ _ _ _ ho =>
        guar_of_not_records ho
    | pollAck a =>
      refine wp_of_all (code_all wk (.item (.pollAck a))) fun o w₁ r w₂ ho => guar_of_not_records ?_
      rintro n ⟨rfl, hn⟩
      cases ho with
      | quiet h => exact h.not_records n ⟨rfl, hn⟩
  | request r =>
    refine wp_of_all (code_all wk (.request r)) fun o w₁ r w₂ ho => guar_of_not_records ?_
    rintro n ⟨rfl, -⟩
    cases ho

end

/-! ## Runs -/

section
variable {lower : String → String} {p : Episode} {clock : Time} {w w' : World (machine lower) Tag}
  {i : Nat} {o : Op} {c : Choice} {r : o.Res}

theorem call_nextId (h : w.call i o c = some (r, w')) :
    w.store.db.nextId ≤ w'.store.db.nextId := by
  rcases Sys.call_db (world_call h).1 with heq | ⟨so, -, -, heq⟩
  · rw [heq]
  · rw [heq]
    exact Db.exec_nextId lower _ so w.store.db

theorem Episode.Ledger.call (h : p.Ledger clock w.store.db) (hclock : clock ≤ w.store.clock)
    (hsince : p.since ≤ w.store.db.nextId) (hc : w.call i o c = some (r, w'))
    (ho : ∀ n, p.Records o n → n.reason = .opened ∧
      (n.channelId.isSome → isDamperMarker n.transport = false)) :
    p.Ledger clock w'.store.db := by
  constructor
  · intro n' hn' hlt
    rcases call_notifications hc hn' with ⟨so, n, hn, hstep⟩ | ⟨m, -, rfl⟩
    · obtain ⟨hid, -, -, -, -, hat⟩ := hstep.keeps
      rw [hat]
      exact h.old n hn (hid ▸ hlt)
    · exact absurd hlt (Nat.not_lt_of_le hsince)
  · intro n' hn' hrow
    rcases call_notifications hc hn' with ⟨so, n, hn, hstep⟩ | ⟨m, hm, rfl⟩
    · obtain ⟨-, -, -, hreason, htransport, hat⟩ := hstep.keeps
      obtain ⟨hnew, hopened, hchannel⟩ := h.row n hn (hstep.row.1 hrow)
      refine ⟨hat ▸ hnew, hreason.trans hopened, fun hsome => htransport ▸ hchannel ?_⟩
      rcases hstep.channelId with heq | heq
      · rw [← heq]
        exact hsome
      · rw [heq] at hsome
        cases hsome
    · obtain ⟨hopened, hchannel⟩ := ho m ⟨congrArg Entry.op hm, hrow.1, hrow.2.1⟩
      exact ⟨lt_of_le_of_lt hclock (w.store.lt_tick c), hopened, hchannel⟩

theorem rowsOf_call {cid : Uuid} (hc : w.call i o c = some (r, w'))
    (h : (p.rowsOf w.store.db cid).length ≤ 1)
    (ho : ∀ n, p.Records o n → n.channelId = some cid → p.Untold w.store.db cid) :
    (p.rowsOf w'.store.db cid).length ≤ 1 := by
  rcases Sys.call_db (world_call hc).1 with heq | ⟨so, rfl, -, heq⟩
  · rw [heq]
    exact h
  · rw [heq]
    unfold Episode.rowsOf at h ⊢
    rcases Db.exec_notifications lower (w.store.tick c) so w.store.db with
      ⟨n, rfl, hrows⟩ | ⟨f, hrows, hstep⟩
    · rw [hrows, List.filter_append]
      by_cases hnew : p.tells cid (w.store.db.recordedRow (w.store.tick c) n) = true
      · obtain ⟨hrow, hcid⟩ := (p.tells_iff).mp hnew
        have huntold := ho n ⟨rfl, hrow.1, hrow.2.1⟩ hcid
        have hnil : w.store.db.notifications.filter (p.tells cid) = [] :=
          List.filter_eq_nil_iff.mpr fun m hm hmatch =>
            huntold m hm ((p.tells_iff).mp hmatch).1 ((p.tells_iff).mp hmatch).2
        rw [hnil, List.nil_append]
        exact List.length_filter_le _ [_]
      · rw [List.filter_cons_of_neg hnew, List.filter_nil, List.append_nil]
        exact h
    · rw [hrows, ← List.countP_eq_length_filter, List.countP_map]
      rw [← List.countP_eq_length_filter] at h
      refine (List.countP_mono_left fun n _ hn => ?_).trans h
      obtain ⟨hrow, hcid⟩ := (p.tells_iff).mp hn
      refine (p.tells_iff).mpr ⟨(hstep n).row.mp hrow, ?_⟩
      rcases (hstep n).channelId with heq | heq
      · exact heq.symm.trans hcid
      · rw [heq] at hcid
        cases hcid

end

namespace Engine

variable {lower : String → String} {wk : Worker} {e e' : Engine lower} {l : Label} {p : Episode}
  {clock : Time}

/-- The incident is paged by Opened signals and reconciles alone, and each finds no policy
for its monitor. -/
structure Duplicates (p : Episode) (e : Engine lower) (l : Label) : Prop where
  signal : ∀ sig rest, l = .recv → e.sys.signals = sig :: rest →
    (Tag.signal sig).onlyOpens p = true
  item : ∀ ph it rest running, l = .start → e.sweep = some ⟨ph, some (it :: rest), running⟩ →
    (Tag.item it).onlyOpens p = true
  flat : ∀ i c t tid, l = .task i c → e.pool.world.tags[i]? = some t → t.opens p = true →
    e.Next i (.store (.resolveForTarget p.org tid)) → e.db.resolveForTarget p.org tid = none

structure OnceInv (p : Episode) (clock : Time) (e : Engine lower) : Prop where
  locked : e.Locked
  meets : e.Meets (onceContract p clock) fun _ _ _ => True
  ledger : p.Ledger clock e.db
  since : p.since ≤ e.db.nextId
  clock : clock ≤ e.sys.clock
  once : ∀ c, (p.rowsOf e.db c).length ≤ 1

theorem onceInv_boot {db : Db} (hkeyed : db.Keyed) (hpast : ∀ n ∈ db.notifications, n.createdAt ≤ clock)
    (hp : p.since = db.nextId) : (boot lower db clock).OnceInv p clock := by
  have hold : ∀ n ∈ db.notifications, ¬ p.Row n := by
    intro n hn hrow
    have hlt := hkeyed.notifications_lt n hn
    rw [← hp] at hlt
    exact absurd hrow.2.2 (Nat.not_le_of_lt hlt)
  refine ⟨locked_boot db clock, meets_boot db clock, ⟨fun n hn _ => hpast n hn, ?_⟩, hp.le,
    le_refl _, fun c => ?_⟩
  · intro n hn hrow
    exact absurd hrow (hold n hn)
  · have hnil : p.rowsOf db c = [] := by
      refine List.filter_eq_nil_iff.mpr fun n hn h => hold n hn ?_
      exact ((p.tells_iff).mp h).1
    change (p.rowsOf db c).length ≤ 1
    rw [hnil]
    exact Nat.zero_le 1

theorem step_aside (h : e.step wk l = some e') (hl : ∀ i c, l ≠ .task i c) :
    e'.db.notifications = e.db.notifications ∧ e'.pool.world.log = e.pool.world.log ∧
      e.db.nextId ≤ e'.db.nextId ∧ e.sys.clock ≤ e'.sys.clock := by
  cases step_cases h with
  | task => exact absurd rfl (hl _ _)
  | @scan c ph running hs hf =>
    have hclock := (e.sys.lt_tick c).le
    rcases wk.scan_db lower (e.sys.tick c) e.db ph with hsame | ⟨limit, lease, heq⟩
    · exact ⟨congrArg Db.notifications hsame, rfl, (congrArg Db.nextId hsame).ge, hclock⟩
    · have haside : Db.Aside e.db (e.db.exec lower (e.sys.tick c)
          (.dueForEscalation (e.sys.tick c) limit lease)).2 := Db.exec_aside rfl
      exact ⟨(congrArg Db.notifications heq).trans haside.1, rfl,
        haside.2.2.trans (congrArg Db.nextId heq).ge, hclock⟩
  | @scanFailed c ph running hs hf => exact ⟨rfl, rfl, le_refl _, (e.sys.lt_tick c).le⟩
  | _ => exact ⟨rfl, rfl, le_refl _, le_refl _⟩

theorem once_assume (he : e.OnceInv p clock) (hok : Duplicates p e l) {i : Nat} {c : Choice}
    {t : Tag} {o : Op} {k : o.Res → Prog calls Unit} {r : o.Res} {w' : World (machine lower) Tag}
    (hl : l = .task i c) (ht : e.pool.world.tags[i]? = some t)
    (hp : e.pool.progs[i]? = some (.call o k)) :
    (onceContract p clock t i).assume o e.pool.world r w' := by
  refine ⟨he.ledger, fun hopens tid ho => hok.flat i c t tid hl ht hopens ?_⟩
  subst ho
  exact ⟨k, hp⟩

theorem once_move (he : e.OnceInv p clock) (hok : Duplicates p e l) (h : e.step wk l = some e') :
    (∃ i c o r, l = .task i c ∧ e.pool.world.call i o c = some (r, e'.pool.world) ∧
        ∀ n, p.Records o n → e.sys.locks (pageLock p.incidentId) = some i ∧ n.reason = .opened ∧
          ∀ cid, n.channelId = some cid → p.Untold e.db cid ∧ isDamperMarker n.transport = false) ∨
      ∀ i c, l ≠ .task i c := by
  cases step_cases h with
  | @task i c P hP =>
    obtain ⟨t, o, k, r, ht, hp, hc, -, hmeet⟩ := Pool.sched_guar he.meets hP
    refine .inl ⟨i, c, o, r, rfl, hc, fun n hn => ?_⟩
    obtain ⟨hheld, -, hreason, hcid⟩ := (hmeet (once_assume he hok rfl ht hp)).1 n hn
    exact ⟨hheld, hreason, hcid⟩
  | _ => exact .inr fun _ _ hl => by cases hl

theorem once_rely (he : e.OnceInv p clock) (hok : Duplicates p e l) (h : e.step wk l = some e')
    {j : Nat} (hj : ∀ c, l ≠ .task j c) (t : Tag) :
    (onceContract p clock t j).rely e.pool.world e'.pool.world := by
  intro hheld
  refine ⟨held_step he.locked h hj hheld, ?_⟩
  rcases once_move he hok h with ⟨i, c, o, r, hl, hc, hguar⟩ | hl
  · -- a row of the incident is recorded by the holder, and that is not the task that moved
    have hno : ∀ n, ¬ p.Records o n := fun n hn => by
      have hi := (hguar n hn).1
      rw [show e.sys.locks (pageLock p.incidentId) = some j from hheld] at hi
      exact hj c (by rw [hl, Option.some.inj hi])
    exact ⟨fun cid hcid => hcid.call hc fun n hn => absurd hn (hno n),
      fun hown => hown.call hc fun n hn => absurd hn (hno n)⟩
  · obtain ⟨hrows, hlog, -, -⟩ := step_aside h hl
    refine ⟨fun cid hcid n hn => hcid n (hrows ▸ hn), fun hown n hn hpage => ?_⟩
    obtain ⟨x, hx, hrec⟩ := hown n (hrows ▸ hn) hpage
    exact ⟨x, hlog ▸ hx, hrec⟩

theorem once_meets (he : e.OnceInv p clock) (hok : Duplicates p e l) (h : e.step wk l = some e') :
    e'.Meets (onceContract p clock) fun _ _ _ => True := by
  refine contracts_step he.meets h (fun t ht => code_once wk ?_ _ _)
    (fun i c t o k r hl ht hp hc => once_assume he hok hl ht hp)
    fun j t ht hj => .inl (once_rely he hok h hj t)
  rcases step_spawn h ht with ⟨sig, rest, hl, hs, rfl⟩ | ⟨r, rfl⟩ | ⟨ph, it, rest, running, hl, hs, rfl⟩
  · exact hok.signal sig rest hl hs
  · rfl
  · exact hok.item ph it rest running hl hs

theorem onceInv_step (he : e.OnceInv p clock) (hok : Duplicates p e l)
    (h : e.step wk l = some e') : e'.OnceInv p clock := by
  have hlocked := locked_step he.locked h
  have hmeets := once_meets he hok h
  rcases once_move he hok h with ⟨i, c, o, r, hl, hc, hguar⟩ | hl
  · obtain ⟨hcall, -, -⟩ := world_call hc
    have hclock : e.sys.clock ≤ e'.sys.clock := by
      rw [Sys.call_clock hcall]
      exact (e.sys.lt_tick c).le
    refine ⟨hlocked, hmeets, he.ledger.call he.clock he.since hc fun n hn => ?_,
      he.since.trans (call_nextId hc), he.clock.trans hclock, fun cid => ?_⟩
    · obtain ⟨-, hreason, hcid⟩ := hguar n hn
      refine ⟨hreason, fun hsome => ?_⟩
      obtain ⟨cid, hcid'⟩ := Option.isSome_iff_exists.mp hsome
      exact (hcid cid hcid').2
    · exact rowsOf_call hc (he.once cid) fun n hn hcid => ((hguar n hn).2.2 cid hcid).1
  · obtain ⟨hrows, -, hnext, hclock⟩ := step_aside h hl
    refine ⟨hlocked, hmeets, ⟨?_, ?_⟩, he.since.trans hnext, he.clock.trans hclock, fun c => ?_⟩
    · rw [hrows]
      exact he.ledger.old
    · rw [hrows]
      exact he.ledger.row
    · unfold Episode.rowsOf
      rw [hrows]
      exact he.once c

theorem own_of_next (he : e.OnceInv p clock) {i : Nat} {n : NewIncidentNotification}
    (hnext : e.Next i (.store (.recordNotification n))) (horg : n.org = p.org)
    (hinc : n.incidentId = p.incidentId) : p.Own i e.pool.world := by
  obtain ⟨k, hp⟩ := hnext
  obtain ⟨t, ht⟩ := he.meets.tag_of_prog hp
  have hwp := he.meets.meets i t _ ht hp _ ((onceContract p clock t i).rely_refl _) Choice.calm
  exact ((hwp _ _ rfl ⟨he.ledger, fun _ _ h => by cases h⟩).1 n ⟨rfl, horg, hinc⟩).2.1

end Engine

/-- **At most one page per channel per episode**, over every run in which the incident is
paged by Opened signals and reconcile sweeps, with no policy bound: each channel has at most
one row of the run, and a handling that records a row finds no page but its own. -/
theorem one_page_per_channel (lower : String → String) (wk : Worker) (db : Db) (clock : Time)
    (hkeyed : db.Keyed) (hpast : ∀ n ∈ db.notifications, n.createdAt ≤ clock) (p : Episode)
    (hp : p.since = db.nextId) (e : Engine lower)
    (hrun : Run (Engine.step wk) (Engine.Duplicates p) (Engine.boot lower db clock) e) :
    (∀ c, (p.rowsOf e.db c).length ≤ 1) ∧
      ∀ i n, e.Next i (.store (.recordNotification n)) → n.org = p.org →
        n.incidentId = p.incidentId →
        ∀ m ∈ e.db.notifications, p.Page m → p.By i e.pool.world.log m := by
  have he : e.OnceInv p clock := hrun.invariant (Engine.onceInv_boot hkeyed hpast hp)
    fun _ _ _ hi hok hstep => Engine.onceInv_step hi hok hstep
  exact ⟨he.once, fun i n hnext horg hinc => Engine.own_of_next he hnext horg hinc⟩

/-- A computable part of the guard. -/
def Engine.duplicatesNow {lower : String → String} (p : Episode) (e : Engine lower) : Label → Bool
  | .recv => e.sys.signals.all fun sig => (Tag.signal sig).onlyOpens p
  | .start =>
    match e.sweep with
    | some ⟨_, some items, _⟩ => items.all fun it => (Tag.item it).onlyOpens p
    | _ => true
  | .task i _ =>
    match e.nextOp i with
    | some (.store (.resolveForTarget org tid)) => (e.db.resolveForTarget org tid).isNone
    | _ => true
  | _ => true

theorem Engine.duplicates_of_duplicatesNow {lower : String → String} {p : Episode}
    (e : Engine lower) (l : Label) (h : e.duplicatesNow p l = true) : Engine.Duplicates p e l where
  signal := by
    rintro sig rest rfl hs
    simp only [Engine.duplicatesNow, hs, List.all_cons, Bool.and_eq_true] at h
    exact h.1
  item := by
    rintro ph it rest running rfl hs
    simp only [Engine.duplicatesNow, hs, List.all_cons, Bool.and_eq_true] at h
    exact h.1
  flat := by
    rintro i c t tid rfl - - hnext
    simpa [Engine.duplicatesNow, hnext.nextOp_eq] using h

/-- An incident whose Opened signal waits until a reconcile has picked the incident up too:
task 1 is the reconcile, task 2 the signal. -/
def Sample.late : List Label :=
  ([.request (.openIncident 1 ⟨7, 0, .down, 2, none, [], []⟩)] : List Label) ++ Sample.go 0 2 ++
  ([.tick, .scan { Choice.calm with elapsed := 20000000 }, .start, .recv] : List Label)

/-- The reconcile pages the channel; the signal, handled after it, adds nothing. -/
theorem one_page_per_channel_twice : ∃ e : Engine id,
    (e.pool.live 1 || e.pool.live 2) = false ∧ e.db.notifications.length = 1 ∧
      ∀ c, ((⟨1, 1000, 1000⟩ : Episode).rowsOf e.db c).length ≤ 1 := by
  have h : (steps (guarded (Engine.step Sample.worker) (Engine.duplicatesNow ⟨1, 1000, 1000⟩))
      (Engine.boot id Sample.flat 1) (Sample.late ++ Sample.go 1 17 ++ Sample.go 2 5)).any
      (fun e => !(e.pool.live 1 || e.pool.live 2) && e.db.notifications.length == 1) = true := by
    decide +kernel
  obtain ⟨e, hrun, he⟩ := exists_run_of_steps h
  simp only [Bool.and_eq_true, Bool.not_eq_true', beq_iff_eq] at he
  exact ⟨e, he.1, he.2, (one_page_per_channel id Sample.worker Sample.flat 1 Sample.flat_keyed
    (fun n hn => by cases hn) ⟨1, 1000, 1000⟩ rfl e
    (hrun.unguard Engine.duplicates_of_duplicatesNow)).1⟩

end Uptimepage
