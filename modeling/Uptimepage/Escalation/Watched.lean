import Uptimepage.Escalation.Contracts

/-!
# Paused and held monitors

Six paths page an incident, each behind a gate of its own.  The gates of the lifecycle
signals look at the whole of `Target.watched`; the escalation and the reminder look only
at `enabled`, and a delivery retry at neither.  All of them look once, before the first
page.
-/

namespace Uptimepage

open Async Async.Fallible Job QuietLogic

/-- The incident the call pages: it records a channel row, or delivers, for a reason other
than a resolution. -/
def Op.pagesFor : Op → Option (OrgId × Uuid)
  | .store (.recordNotification n) =>
    if n.channelId.isSome && n.reason != .resolved then some (n.org, n.incidentId) else none
  | .notify channel notice _ _ _ =>
    if notice.reason != .resolved then some (channel.org, notice.incidentId) else none
  | _ => none

/-- The call pages some incident. -/
def Op.Paging (o : Op) : Prop := o.pagesFor.isSome = true

namespace Db

/-- The monitor is paused or held. -/
def offMonitor (db : Db) (org : OrgId) (targetId : Uuid) : Bool :=
  (db.target org targetId).any fun t => !t.watched

/-- The incident's monitor is paused or held. -/
def unwatched (db : Db) (org : OrgId) (k : Uuid) : Bool :=
  (db.incident org k).any fun i => i.targetId.any (db.offMonitor org)

/-- The incident is there and belongs to the monitor. -/
def Monitors (db : Db) (org : OrgId) (k : Uuid) (targetId : Uuid) : Prop :=
  ∃ i, db.incident org k = some i ∧ i.targetId = some targetId

variable {lower : String → String} {now : Time} {db : Db} {org : OrgId} {k tid : Uuid}

theorem Monitors.of_eq {db' : Db} (h : db.Monitors org k tid) (heq : db' = db) :
    db'.Monitors org k tid := heq ▸ h

theorem Monitors.exec (h : db.Monitors org k tid) (o : StoreOp) :
    (db.exec lower now o).2.Monitors org k tid := by
  obtain ⟨i, hi, ht⟩ := h
  obtain ⟨i', hi', hstep⟩ := exec_incident_some lower now o hi
  exact ⟨i', hi', by rw [hstep.targetId_eq, ht]⟩

theorem Monitors.unwatched_eq (h : db.Monitors org k tid) :
    db.unwatched org k = db.offMonitor org tid := by
  obtain ⟨i, hi, ht⟩ := h
  simp [unwatched, hi, ht]

theorem offMonitor_exec {o : StoreOp} (ho : ∀ s, o ≠ .configure s) :
    (db.exec lower now o).2.offMonitor org tid = db.offMonitor org tid := by
  rcases exec_targets lower now o db with ⟨s, rfl, -⟩ | h
  · exact absurd rfl (ho s)
  · simp only [offMonitor, target, h]

end Db

/-! ## Gates -/

/-- What a path's gate lets through unwatched, it must not meet: an enabled monitor that is
held, for an escalation or a reminder; any unwatched monitor, for the retry of a notice
other than a resolution. -/
def Tag.gate : Tag → Target → Bool
  | .item (.escalate _), t | .item (.renotify _), t => !t.enabled || t.planHoldAt.isNone
  | .item (.retry p), t => p.reason == .resolved || t.watched
  | _, _ => true

/-- The monitor a call has read. -/
def Op.reads : (o : Op) → o.Res → Option ((OrgId × Uuid) × Target)
  | .store (.target org id), r =>
    match (r : Except StoreError (Option Target)) with
    | .ok (some t) => some ((org, id), t)
    | _ => none
  | _, _ => none

section
variable {lower : String → String}

/-- Task `me` has read the monitor. -/
def HasRead (me : Nat) (log : List (Entry calls)) (org : OrgId) (targetId : Uuid) : Prop :=
  ∃ x ∈ log, x.task = me ∧ ∃ t, Op.reads x.op x.res = some ((org, targetId), t)

/-- A monitor the task has read stays watched; its own pages find the incident's monitor
watched. -/
def watchContract (t : Tag) (me : Nat) : Contract (machine lower) Tag where
  rely := fun w w' =>
    (∀ org k tid, w.store.db.Monitors org k tid → w'.store.db.Monitors org k tid) ∧
      (∀ x ∈ w.log, x ∈ w'.log) ∧
      ∀ org tid, HasRead me w.log org tid → w.store.db.offMonitor org tid = false →
        w'.store.db.offMonitor org tid = false
  assume := fun o _ r _ => ∀ s tgt, o.reads r = some (s, tgt) → t.gate tgt = true
  guar := fun o w _ _ => ∀ s, o.pagesFor = some s → w.store.db.unwatched s.1 s.2 = false
  rely_refl := fun _ => ⟨fun _ _ _ h => h, fun _ h => h, fun _ _ _ h => h⟩
  rely_trans := fun {_ _ _} h₁ h₂ =>
    ⟨fun org k tid h => h₂.1 org k tid (h₁.1 org k tid h), fun x h => h₂.2.1 x (h₁.2.1 x h),
      fun org tid hr h => h₂.2.2 org tid
        (hr.elim fun x hx => ⟨x, h₁.2.1 x hx.1, hx.2⟩) (h₁.2.2 org tid hr h)⟩

/-- What holds from the read of a watched monitor to the task's end. -/
def OnWatched (me : Nat) (org : OrgId) (k tid : Uuid) (w : World (machine lower) Tag) : Prop :=
  w.store.db.Monitors org k tid ∧ HasRead me w.log org tid ∧
    w.store.db.offMonitor org tid = false

variable {t : Tag} {me : Nat} {org : OrgId} {k tid : Uuid} {w w' : World (machine lower) Tag}
  {R S : NotificationReason → Prop} {α : Type}

theorem OnWatched.rely (hr : (watchContract t me).rely w w') (h : OnWatched me org k tid w) :
    OnWatched me org k tid w' := by
  obtain ⟨x, hx, htask⟩ := h.2.1
  exact ⟨hr.1 _ _ _ h.1, ⟨x, hr.2.1 x hx, htask⟩, hr.2.2 _ _ h.2.1 h.2.2⟩

theorem QuietCall.pagesFor_none {o : Op} (h : QuietCall org o) : o.pagesFor = none := by
  cases h with
  | @read so h => cases so <;> first | rfl | cases h
  | own h => cases o <;> first | rfl | cases h
  | clear => rfl

theorem PageCall.pagesFor_eq {o : Op} {s : OrgId × Uuid} (h : PageCall org k R S o)
    (hs : o.pagesFor = some s) : s = (org, k) := by
  cases h with
  | record horg hid _ _ =>
    simp only [Op.pagesFor, Option.ite_none_right_eq_some, Option.some.injEq] at hs
    rw [← hs.2, horg, hid]
  | notify horg hid _ =>
    simp only [Op.pagesFor, Option.ite_none_right_eq_some, Option.some.injEq] at hs
    rw [← hs.2, horg, hid]
  | quiet h => rw [h.pagesFor_none] at hs; cases hs
  | _ => cases hs

theorem PageCall.not_configure {o : Op} (h : PageCall org k R S o) (s : Settings) :
    o ≠ .store (.configure s) := by
  rintro rfl
  cases h with
  | quiet h =>
    cases h with
    | read h => cases h
    | own h => cases h

theorem onWatched_call {o : Op} {c : Choice} {r : o.Res} (ho : PageCall org k R S o)
    (h : OnWatched me org k tid w) (hc : w.call me o c = some (r, w')) :
    (watchContract t me).guar o w r w' ∧ OnWatched me org k tid w' := by
  obtain ⟨hcall, -, hlog⟩ := world_call hc
  obtain ⟨hmon, ⟨x, hx, htask⟩, hoff⟩ := h
  refine ⟨fun s hs => ?_, ?_, ⟨x, by rw [hlog]; exact List.mem_cons_of_mem _ hx, htask⟩, ?_⟩
  · obtain rfl := ho.pagesFor_eq hs
    rw [hmon.unwatched_eq, hoff]
  · rcases Sys.call_db hcall with heq | ⟨so, -, -, heq⟩
    · rw [heq]; exact hmon
    · rw [heq]; exact hmon.exec so
  · rcases Sys.call_db hcall with heq | ⟨so, rfl, -, heq⟩
    · rw [heq]; exact hoff
    · rw [heq, Db.offMonitor_exec fun s hs => ho.not_configure s (congrArg _ hs)]
      exact hoff

theorem wpJob_onWatched {x : Job α} (hx : Pages org k R S x) (h : OnWatched me org k tid w) :
    wpJob (watchContract t me) me x (fun _ w => OnWatched me org k tid w) w :=
  wpJob_mono (wpJob_of_inv (fun _ _ => OnWatched.rely)
    (fun _ _ _ _ _ ho hJ hc _ => onWatched_call ho hJ hc) hx h) fun _ _ h => h.2

theorem PageCall.pagesFor_none {o : Op} (h : PageCall org k R S o) (hR : ∀ r, R r → r = .resolved)
    (hS : ∀ r, S r → r = .resolved) : o.pagesFor = none := by
  cases h with
  | @record n horg hid hr _ =>
    cases hc : n.channelId with
    | none => simp [Op.pagesFor, hc]
    | some c => simp [Op.pagesFor, hR _ (hr (by simp [hc]))]
  | notify horg hid hs => simp [Op.pagesFor, hS _ hs]
  | quiet h => exact h.pagesFor_none
  | _ => rfl

theorem guar_of_none {o : Op} {r : o.Res} (h : o.pagesFor = none) :
    (watchContract t me).guar o w r w' := fun s hs => by rw [h] at hs; cases hs

/-! ## The paths -/

variable {β : Type} {Q : β → World (machine lower) Tag → Prop}

theorem wpJob_get {f : Option OpsIncident → Job β}
    (h : ∀ r w', (∀ inc, r = some inc → inc.id = k ∧
        ∀ tid, inc.targetId = some tid → w'.store.db.Monitors org k tid) →
      wpJob (watchContract t me) me (f r) Q w') :
    wpJob (watchContract t me) me (store (.get org k) >>= f) Q w := by
  refine wpJob_store fun w₁ c r w₂ _ hc _ => ⟨guar_of_none rfl, fun a ha => h a w₂ ?_⟩
  subst ha
  obtain ⟨hexec, hhonest, -⟩ := store_ok hc
  obtain ⟨hr, hdb⟩ := Prod.mk.inj hexec
  intro inc hinc
  refine ⟨hhonest inc hinc, fun tid htid => ?_⟩
  subst hinc
  obtain ⟨i, hi, rfl⟩ := Option.map_eq_some_iff.mp (Except.ok.inj hr)
  rw [← hdb]
  exact ⟨i, hi, htid⟩

theorem wpJob_target {f : Option Target → Job β} (hmon : w.store.db.Monitors org k tid)
    (h : ∀ r w', (∀ tgt, r = some tgt → t.gate tgt = true ∧
        (tgt.watched = true → OnWatched me org k tid w')) →
      wpJob (watchContract t me) me (f r) Q w') :
    wpJob (watchContract t me) me (store (.target org tid) >>= f) Q w := by
  refine wpJob_store fun w₁ c r w₂ hrely hc ha => ⟨guar_of_none rfl, fun a hok => h a w₂ ?_⟩
  subst hok
  intro tgt htgt
  subst htgt
  obtain ⟨hexec, -, -⟩ := store_ok hc
  obtain ⟨hr, hdb⟩ := Prod.mk.inj hexec
  have hfound : w₁.store.db.target org tid = some tgt := Except.ok.inj hr
  have hsame : w₂.store.db = w₁.store.db := hdb.symm
  refine ⟨ha _ tgt rfl, fun hwatched => ⟨?_, ?_, ?_⟩⟩
  · rw [hsame]
    exact hrely.1 _ _ _ hmon
  · exact ⟨_, by rw [(world_call hc).2.2]; exact List.mem_cons_self, rfl, tgt, rfl⟩
  · simp [Db.offMonitor, hsame, hfound, hwatched]

theorem wpJob_aside {o : StoreOp} {f : o.Ret → Job β} (ho : Op.pagesFor (.store o) = none)
    (hf : ∀ a (w' : World (machine lower) Tag), wpJob (watchContract t me) me (f a) Q w') :
    wpJob (watchContract t me) me (store o >>= f) Q w :=
  wpJob_store fun _ _ _ w₂ _ _ _ => ⟨guar_of_none ho, fun a _ => hf a w₂⟩

theorem wpJob_true {x : Job β} (h : wpJob (watchContract t me) me x Q w) :
    wpJob (watchContract t me) me x (fun _ _ => True) w := wpJob_mono h fun _ _ _ => trivial

theorem wpJob_unpaged {x : Job β} (hx : Pages org k (· = .resolved) (· = .resolved) x) :
    wpJob (watchContract t me) me x (fun _ _ => True) w :=
  wpJob_of_all hx fun _ _ _ _ ho => guar_of_none (ho.pagesFor_none (fun _ h => h) fun _ h => h)

theorem wpJob_lock {k : Uuid} {x : Job β}
    (hx : ∀ w₂ : World (machine lower) Tag,
      wpJob (watchContract t me) me x (fun _ _ => True) w₂) :
    wpJob (watchContract t me) me (locked k x) (fun _ _ => True) w :=
  wpJob_locked (fun _ _ => guar_of_none rfl) (fun _ _ => guar_of_none rfl) fun w₂ _ => hx w₂

theorem pageWith_watched (wk : Worker) (reason : NotificationReason) (damper : Damper) :
    wpJob (watchContract t me) me (wk.pageWith org k reason damper) (fun _ _ => True) w := by
  refine wpJob_lock fun w₂ => wpJob_get fun r w₃ hget => ?_
  split
  · exact wpJob_pure fun _ _ => trivial
  · next incident =>
    obtain ⟨hid, hmon⟩ := hget incident rfl
    split
    · exact wpJob_pure fun _ _ => trivial
    · next tid htid =>
      refine wpJob_target (hmon tid htid) fun r w₄ htarget => ?_
      split
      · exact wpJob_pure fun _ _ => trivial
      · next target =>
        obtain ⟨-, hon⟩ := htarget target rfl
        by_cases hres : reason = .resolved
        · subst hres
          exact wpJob_unpaged (pageTarget_runs wk (fun _ => footprint_canPage_self wk .resolved) hid
            target damper)
        · cases hw : target.watched with
          | true =>
            exact wpJob_true (wpJob_onWatched (R := fun _ => True) (S := fun _ => True)
              (pageTarget_runs wk (fun _ => footprint_canPage wk trivial trivial) hid target damper)
              (hon hw))
          | false =>
            have hgate : (!target.watched && reason != .resolved) = true := by simp [hw, hres]
            unfold Worker.pageTarget
            rw [if_pos hgate]
            exact wpJob_pure fun _ _ => trivial

theorem releaseOne_watched (wk : Worker) (d : DueIncident) :
    wpJob (watchContract t me) me (wk.releaseOne d) (fun _ _ => True) w := by
  refine wpJob_aside rfl fun before w₁ => ?_
  refine wpJob_bind (wpJob_mono (wpJob_unpaged (k := d.id) (heldReason_runs d.id)) fun reason w₂ _ => ?_)
  refine wpJob_bind (wpJob_mono (pageWith_watched wk reason .skip) fun _ w₃ _ => ?_)
  refine wpJob_aside rfl fun after w₄ => ?_
  split
  · exact wpJob_pure fun _ _ => trivial
  · refine wpJob_aside ?_ fun _ _ => wpJob_pure fun _ _ => trivial
    simp [Op.pagesFor, markerRow]

theorem escalateOne_watched (wk : Worker) (d : DueIncident) :
    wpJob (watchContract (.item (.escalate d)) me) me (wk.escalateOne d) (fun _ _ => True) w := by
  have hdisarm : ∀ w' : World (machine lower) Tag,
      wpJob (watchContract (.item (.escalate d)) me) me (Worker.disarm d) (fun _ _ => True) w' :=
    fun w' => wpJob_unpaged (disarm_runs d)
  unfold Worker.escalateOne
  split
  · exact hdisarm w
  · refine wpJob_aside rfl fun a w₂ => ?_
    split
    · exact hdisarm w₂
    · split
      · refine wpJob_bind (wpJob_mono (hdisarm w₂) fun _ w₃ _ => ?_)
        exact wpJob_unpaged (pages_call (.event rfl))
      · refine wpJob_get fun r w₃ hget => ?_
        split
        · exact wpJob_pure fun _ _ => trivial
        · next incident =>
          obtain ⟨hid, hmon⟩ := hget incident rfl
          split
          · exact wpJob_pure fun _ _ => trivial
          · next tid htid =>
            refine wpJob_target (hmon tid htid) fun r w₄ htarget => ?_
            split
            · exact wpJob_pure fun _ _ => trivial
            · next target =>
              obtain ⟨hgate, hon⟩ := htarget target rfl
              cases hen : target.enabled with
              | false =>
                have hquiet : Worker.escalationQuiet d.org target = pure true := by
                  simp [Worker.escalationQuiet, hen]
                rw [hquiet]
                exact wpJob_unpaged (park_runs d)
              | true =>
                have hw : target.watched = true := by
                  simpa [Target.watched, hen, Tag.gate] using hgate
                refine wpJob_true (wpJob_onWatched (R := (· = .escalated)) (S := (· = .escalated))
                  ?_ (hon hw))
                refine runs_bind (escalationQuiet_runs target) fun quiet => ?_
                split
                · exact park_runs d
                · exact pageRung_runs wk d _ _ _ _ (footprint_canPage_self wk .escalated) hid rfl

theorem renotifyOne_watched (wk : Worker) (d : DueIncident) :
    wpJob (watchContract (.item (.renotify d)) me) me (wk.renotifyOne d) (fun _ _ => True) w := by
  refine wpJob_lock fun w₂ => wpJob_get fun r w₃ hget => ?_
  split
  · exact wpJob_pure fun _ _ => trivial
  · next incident =>
    obtain ⟨hid, hmon⟩ := hget incident rfl
    split
    · exact wpJob_pure fun _ _ => trivial
    · split
      · exact wpJob_pure fun _ _ => trivial
      · next tid htid =>
        refine wpJob_target (hmon tid htid) fun r w₄ htarget => ?_
        split
        · exact wpJob_pure fun _ _ => trivial
        · next target =>
          obtain ⟨hgate, hon⟩ := htarget target rfl
          split
          · exact wpJob_pure fun _ _ => trivial
          · next hen =>
            have hw : target.watched = true := by
              simp only [Bool.or_eq_true, Bool.not_eq_true', not_or, Bool.not_eq_false] at hen
              simpa [Target.watched, hen.1, Tag.gate] using hgate
            refine wpJob_true (wpJob_onWatched (R := (· = .reminder)) (S := (· = .reminder))
              ?_ (hon hw))
            refine runs_bind (alertsSuppressed_runs tid) fun quiet => ?_
            split
            · exact runs_pure
            · exact remind_runs wk d incident target (footprint_canPage_self wk .reminder) hid

theorem rebuildFor_watched (wk : Worker) (p : PendingNotification) (hp : p.reason ≠ .resolved) :
    wpJob (watchContract (.item (.retry p)) me) me (wk.rebuildFor p)
      (fun r w => r.isSome → Rebuilt p.org p.incidentId p.reason r ∧
        ∃ tid, OnWatched me p.org p.incidentId tid w) w := by
  unfold Worker.rebuildFor
  split
  · next cid hcid =>
    refine wpJob_get fun r w₁ hget => ?_
    split
    · exact wpJob_pure fun _ _ h => by cases h
    · next incident =>
      obtain ⟨hid, hmon⟩ := hget incident rfl
      split
      · exact wpJob_pure fun _ _ h => by cases h
      · next tid htid =>
        refine wpJob_target (hmon tid htid) fun r w₂ htarget => ?_
        split
        · exact wpJob_pure fun _ _ h => by cases h
        · next target =>
          obtain ⟨hgate, hon⟩ := htarget target rfl
          have hw : target.watched = true := by simpa [Tag.gate, hp] using hgate
          refine wpJob_mono (wpJob_of_inv (R := Rebuilt p.org p.incidentId p.reason)
            (P := PageCall p.org p.incidentId (fun _ => True) (fun _ => True))
            (fun _ _ => OnWatched.rely)
            (fun _ _ _ _ _ ho hJ hc _ => onWatched_call ho hJ hc) ?_ (hon hw))
            fun r w h _ => ⟨h.1, tid, h.2⟩
          refine all_bind (all_store (.quiet (.read rfl))) fun r hr => ?_
          split
          · exact all_pure trivial
          · next channel => exact all_pure ⟨(hr channel rfl).1, hid, rfl⟩
  · exact wpJob_pure fun _ _ h => by cases h

theorem retryOne_watched (wk : Worker) (p : PendingNotification) :
    wpJob (watchContract (.item (.retry p)) me) me (wk.retryOne p) (fun _ _ => True) w := by
  by_cases hres : p.reason = .resolved
  · refine wpJob_unpaged ((retryOne_pages wk p).mono ?_ ?_)
    · exact fun _ h => h.elim
    · rintro r rfl
      exact hres
  · refine wpJob_bind (wpJob_mono (rebuildFor_watched wk p hres) fun r w₁ hr => ?_)
    split
    · exact wpJob_unpaged (k := p.incidentId)
        (runs_bind (retryBackoff_runs wk _) fun _ => pages_call .mark)
    · next notice channel state =>
      obtain ⟨⟨horg, hid, hreason⟩, tid, hon⟩ := hr rfl
      refine wpJob_true (wpJob_onWatched (R := fun _ => True) (S := fun _ => True) ?_ hon)
      split
      · exact pages_call .mark
      · exact runs_bind (sendAndMark_pages wk p.id _ horg hid trivial) fun _ => runs_pure

theorem code_watched (wk : Worker) (t : Tag) (me : Nat) (w : World (machine lower) Tag) :
    (watchContract t me).wp me (wk.code t) (fun _ _ => True) w := by
  cases t with
  | signal sig => exact wpJob_detach (pageWith_watched wk sig.reason .apply)
  | item it =>
    cases it with
    | reconcile d => exact wpJob_detach (pageWith_watched wk .opened .apply)
    | release d => exact wpJob_detach (releaseOne_watched wk d)
    | escalate d => exact wpJob_detach (escalateOne_watched wk d)
    | renotify d => exact wpJob_detach (renotifyOne_watched wk d)
    | retry p => exact wpJob_detach (retryOne_watched wk p)
    | pollAck a =>
      refine wp_of_all (code_all wk (.item (.pollAck a))) fun o w₁ r w₂ ho => guar_of_none ?_
      cases ho with
      | quiet h => exact h.pagesFor_none
      | acknowledge => rfl
      | acked => rfl
  | request r =>
    refine wp_of_all (code_all wk (.request r)) fun o w₁ r w₂ ho => guar_of_none ?_
    cases o with
    | store so => cases so <;> first | rfl | cases ho
    | _ => first | rfl | cases ho

end

/-! ## Runs -/

namespace Engine

variable {lower : String → String} {wk : Worker} {e e' : Engine lower} {l : Label}

/-- Task `i` is about to page an incident whose monitor is paused or held. -/
def pagesUnwatched (e : Engine lower) (i : Nat) : Bool :=
  (e.nextOp i).any fun o => o.pagesFor.any fun s => e.db.unwatched s.1 s.2

/-- No path reads a monitor that its gate lets through unwatched, and no edit pauses or
holds a monitor that a task has read and may still page. -/
structure Gated (e : Engine lower) (l : Label) : Prop where
  read : ∀ i c t org tid tgt, l = .task i c → e.pool.world.tags[i]? = some t →
    e.Next i (.store (.target org tid)) → c.fails = false → e.db.target org tid = some tgt →
    t.gate tgt = true
  edit : ∀ i c s org tid j, l = .task i c → e.Next i (.store (.configure s)) → c.fails = false →
    e.db.offMonitor org tid = false → ({ e.db with settings := s } : Db).offMonitor org tid = true →
    HasRead j e.pool.world.log org tid →
    ¬ e.pool.MayAt Op.Honest Op.Paging j

theorem reads_of_call {o : Op} {me : Nat} {c : Choice} {r : o.Res} {sys sys' : Sys}
    {s : OrgId × Uuid} {tgt : Target} (hc : Sys.call lower me o c sys = some (r, sys'))
    (h : o.reads r = some (s, tgt)) :
    o = .store (.target s.1 s.2) ∧ c.fails = false ∧ sys.db.target s.1 s.2 = some tgt := by
  cases o with
  | store so =>
    cases so with
    | target org id =>
      rcases Sys.call_store hc with ⟨-, rfl, -⟩ | ⟨hf, rfl, -⟩
      · cases h
      · have hexec : (sys.db.exec lower (sys.tick c) (.target org id)).1 =
          .ok (sys.db.target org id) := rfl
        cases ht : sys.db.target org id with
        | none =>
          rw [hexec, ht] at h
          cases h
        | some t' =>
          rw [hexec, ht] at h
          cases h
          exact ⟨rfl, hf, ht⟩
    | _ => cases h
  | _ => cases h

theorem rely_step (hok : Gated e l) (h : e.step wk l = some e') {j : Nat} {t : Tag}
    (hmay : e.pool.MayAt Op.Honest Op.Paging j) :
    (watchContract t j).rely e.pool.world e'.pool.world := by
  refine ⟨fun org k tid hmon => ?_, step_log h, fun org tid hread hoff => ?_⟩
  · cases step_db h with
    | same heq => exact hmon.of_eq heq
    | call _ _ heq => exact (hmon.exec _).of_eq heq
    | lease heq => exact (hmon.exec _).of_eq heq
  · cases step_db h with
    | same heq => exact (congrArg (Db.offMonitor · org tid) heq).trans hoff
    | lease heq =>
      refine (congrArg (Db.offMonitor · org tid) heq).trans ?_
      rw [Db.offMonitor_exec (fun s hs => by cases hs)]
      exact hoff
    | @call i c o hnext hf heq =>
      refine (congrArg (Db.offMonitor · org tid) heq).trans ?_
      by_cases ho : ∃ s, o = .configure s
      · obtain ⟨s, rfl⟩ := ho
        by_contra hon
        rw [Bool.not_eq_false] at hon
        exact hok.edit i c s org tid j rfl hnext hf hoff hon hread hmay
      · rw [Db.offMonitor_exec (fun s hs => ho ⟨s, hs⟩)]
        exact hoff

theorem watched_step (he : e.Meets watchContract fun _ _ _ => True) (hok : Gated e l)
    (h : e.step wk l = some e') : e'.Meets watchContract fun _ _ _ => True := by
  refine contracts_step he h (fun t _ => code_watched wk t _ _) ?_ ?_
  · intro i c t o k r hl ht hp hc s tgt hs
    obtain ⟨rfl, hf, htgt⟩ := reads_of_call (world_call hc).1 hs
    exact hok.read i c t s.1 s.2 tgt hl ht ⟨k, hp⟩ hf htgt
  · intro j t ht _
    by_cases hmay : e.pool.MayAt Op.Honest Op.Paging j
    · exact .inl (rely_step hok h hmay)
    · refine .inr fun p hp => ?_
      have hall : p.All Op.Honest (fun o : Op => ¬ o.Paging) fun _ => True := by
        by_contra hno
        exact hmay ⟨p, hp, hno⟩
      refine wp_of_all hall fun o w₁ r w₂ ho => guar_of_none ?_
      simpa [Op.Paging] using ho

theorem not_pagesUnwatched (he : e.Meets watchContract fun _ _ _ => True) (i : Nat) :
    e.pagesUnwatched i = false := by
  by_contra hbad
  simp only [pagesUnwatched, Bool.not_eq_false, Option.any_eq_true] at hbad
  obtain ⟨o, hop, s, hs, hun⟩ := hbad
  obtain ⟨p, hp, hnext⟩ := Option.bind_eq_some_iff.mp hop
  obtain ⟨t, ht⟩ := he.tag_of_prog hp
  cases p with
  | ret a => cases hnext
  | call o' k =>
    obtain rfl : o' = o := Option.some.inj hnext
    have hwp := he.meets i t _ ht hp _ ((watchContract t i).rely_refl _) Choice.calm
    have hguar : ∃ r w', e.pool.world.call i o' Choice.calm = some (r, w') ∧
        ∀ s tgt, o'.reads r = some (s, tgt) → t.gate tgt = true := by
      cases o' with
      | store so =>
        cases so with
        | recordNotification n => exact ⟨_, _, rfl, fun _ _ h => by cases h⟩
        | _ => cases hs
      | notify => exact ⟨_, _, rfl, fun _ _ h => by cases h⟩
      | _ => cases hs
    obtain ⟨r, w', hc, hassume⟩ := hguar
    have := (hwp r w' hc hassume).1 s hs
    rw [hun] at this
    cases this

end Engine

/-- **A paused or held monitor is never paged**, in every run whose gates meet no monitor
they would let through and no monitor is paused or held under a task that may still page
it: no task is ever about to record or deliver a non-resolved page for it. -/
theorem watched_of_gated (lower : String → String) (wk : Worker) (db : Db) (clock : Time)
    (e : Engine lower) (h : Run (Engine.step wk) Engine.Gated (Engine.boot lower db clock) e)
    (i : Nat) : e.pagesUnwatched i = false :=
  Engine.not_pagesUnwatched (h.invariant (Engine.meets_boot db clock) fun _ _ _ hi hok hstep =>
    Engine.watched_step hi hok hstep) i

/-- A computable part of the guard: gates are checked at each read, and nothing is edited. -/
def Engine.gatedNow {lower : String → String} (e : Engine lower) : Label → Bool
  | .task i _ =>
    match e.nextOp i with
    | some (.store (.configure _)) => false
    | some (.store (.target org tid)) =>
      (e.pool.world.tags[i]?).all fun t => (e.db.target org tid).all t.gate
    | _ => true
  | _ => true

theorem Engine.gated_of_gatedNow {lower : String → String} (e : Engine lower) (l : Label)
    (h : e.gatedNow l = true) : Engine.Gated e l where
  read := by
    rintro i c t org tid tgt rfl ht hnext - htgt
    simpa [Engine.gatedNow, hnext.nextOp_eq, ht, htgt] using h
  edit := by
    rintro i c s org tid j rfl hnext
    simp [Engine.gatedNow, hnext.nextOp_eq] at h

/-- The page of a monitor's new outage. -/
theorem watched_of_gated_opened : ∃ e : Engine id,
    ((e.nextOp 1).any fun o => o.pagesFor == some (1, 1000)) = true ∧
      e.pagesUnwatched 1 = false := by
  have h : (steps (guarded (Engine.step Sample.worker) Engine.gatedNow)
      (Engine.boot id Sample.flat 1)
      (Sample.opening ++ Sample.go 1 10)).any
      (fun e => (e.nextOp 1).any fun o => o.pagesFor == some (1, 1000)) = true := by
    decide +kernel
  obtain ⟨e, hrun, hpages⟩ := exists_run_of_steps h
  exact ⟨e, hpages, watched_of_gated id Sample.worker Sample.flat 1 e
    (hrun.unguard Engine.gated_of_gatedNow) 1⟩

/-- A monitor on a plan hold, its incident's timer due. -/
def Sample.held : Db :=
  { Sample.armed with
    settings := Sample.settings
      { Sample.target Sample.alerts (some 50) with planHoldAt := some 0 } }

/-- A plan hold ends the watch. -/
example : (Sample.held.target 1 7).any Target.watched = false := by decide +kernel

/-- The escalation looks at `enabled` alone: it is about to page the held monitor. -/
theorem held_paged : ∃ e : Engine id,
    Run (Engine.step Sample.worker) (fun _ _ => True) (Engine.boot id Sample.held 1) e ∧
      e.pagesUnwatched 0 = true := by
  have h : (steps (Engine.step Sample.worker) (Engine.boot id Sample.held 1)
      (Sample.sweepTo 3 ++ [.start] ++ Sample.go 0 6)).any (fun e => e.pagesUnwatched 0) = true := by
    decide +kernel
  exact exists_run_of_steps h

end Uptimepage
