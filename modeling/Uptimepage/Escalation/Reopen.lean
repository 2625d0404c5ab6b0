import Uptimepage.Escalation.OnePage
import Uptimepage.Escalation.Smooth

/-!
# Reopened incidents

A Reopened signal starts a new episode only where the ledger shows that the last one is
over, and only a Resolved row shows it: when the all-clear recorded none (the monitor opted
out of recovery notices, its channels were turned off, the Resolved signal is still to be
handled), the reopened outage pages nobody.
-/

namespace Uptimepage

open Async Async.Fallible Job QuietLogic

/-! ## Pages of the new episode -/

/-- The episode has a page on a channel. -/
def Episode.Told (p : Episode) (db : Db) : Prop :=
  ∃ n ∈ db.notifications, p.Row n ∧ n.channelId.isSome = true ∧ n.reason.isOpenSide = true

instance (p : Episode) (n : NotificationRow) : Decidable (p.Row n) :=
  inferInstanceAs (Decidable (n.org = p.org ∧ n.incidentId = p.incidentId ∧ p.since ≤ n.id))

instance (p : Episode) (db : Db) : Decidable (p.Told db) :=
  inferInstanceAs (Decidable (∃ n ∈ db.notifications, p.Row n ∧ n.channelId.isSome = true ∧
    n.reason.isOpenSide = true))

namespace Db

variable {p : Episode} {now : Time} {db : Db} {lower : String → String} {o : StoreOp}

theorem told_exec (hdelete : ∀ org id, o ≠ .deleteChannel org id)
    (hrecord : ∀ m, o = .recordNotification m → m.org = p.org → m.incidentId = p.incidentId →
      m.channelId = none) :
    p.Told (db.exec lower now o).2 ↔ p.Told db := by
  have hstays : ∀ {n n'}, NoteStep o n n' → n'.channelId = n.channelId := by
    intro n n' h
    cases h with
    | unlinked _ => exact absurd rfl (hdelete _ _)
    | _ => rfl
  constructor
  · rintro ⟨n', hn', hrow, hchannel, hreason⟩
    rcases mem_exec_notifications hn' with ⟨n, hn, hstep⟩ | ⟨m, rfl, rfl⟩
    · exact ⟨n, hn, hstep.row.1 hrow, hstays hstep ▸ hchannel, hstep.keeps.2.2.2.1 ▸ hreason⟩
    · rw [show (db.recordedRow now m).channelId = none from hrecord m rfl hrow.1 hrow.2.1]
        at hchannel
      cases hchannel
  · rintro ⟨n, hn, hrow, hchannel, hreason⟩
    rcases exec_notifications lower now o db with ⟨m, rfl, heq⟩ | ⟨f, heq, hstep⟩
    · exact ⟨n, by rw [heq]; exact List.mem_append_left _ hn, hrow, hchannel, hreason⟩
    · refine ⟨f n, by rw [heq]; exact List.mem_map_of_mem hn, (hstep n).row.mpr hrow, ?_, ?_⟩
      · rw [hstays (hstep n)]
        exact hchannel
      · rw [(hstep n).keeps.2.2.2.1]
        exact hreason

theorem told_record {m : NewIncidentNotification} (hsince : p.since ≤ db.nextId)
    (horg : m.org = p.org) (hinc : m.incidentId = p.incidentId)
    (hchannel : m.channelId.isSome = true) (hreason : m.reason.isOpenSide = true) :
    p.Told (db.exec lower now (.recordNotification m)).2 :=
  ⟨db.recordedRow now m, List.mem_append_right _ (List.mem_singleton.mpr rfl),
    ⟨horg, hinc, hsince⟩, hchannel, hreason⟩

theorem active_reworks {org : OrgId} {k : Uuid}
    (h : Reworks o db (db.exec lower now o).2.notifications) :
    openEpisodeActive ((db.exec lower now o).2.notificationsFor org k) =
      openEpisodeActive (db.notificationsFor org k) := by
  obtain ⟨f, heq, hstep⟩ := h
  rw [Bool.eq_iff_iff, active_iff, active_iff, heq]
  constructor
  · rintro ⟨n', hn', hkey, hpage, hnewer⟩
    obtain ⟨n, hn, rfl⟩ := List.mem_map.mp hn'
    obtain ⟨-, horg, hinc, hreason, htransport, hat⟩ := (hstep n).keeps
    refine ⟨n, hn, ⟨horg ▸ hkey.1, hinc ▸ hkey.2⟩, ⟨htransport ▸ hpage.1, hreason ▸ hpage.2⟩, ?_⟩
    intro r hr horg' hk hres
    obtain ⟨-, horg₁, hinc₁, hreason₁, -, hat₁⟩ := (hstep r).keeps
    rw [← hat, ← hat₁]
    exact hnewer _ (List.mem_map_of_mem hr) (horg₁.trans horg') (hinc₁.trans hk)
      (hreason₁.trans hres)
  · rintro ⟨n, hn, hkey, hpage, hnewer⟩
    obtain ⟨-, horg, hinc, hreason, htransport, hat⟩ := (hstep n).keeps
    refine ⟨f n, List.mem_map_of_mem hn, ⟨horg.trans hkey.1, hinc.trans hkey.2⟩,
      ⟨by rw [htransport]; exact hpage.1, by rw [hreason]; exact hpage.2⟩, ?_⟩
    intro r' hr' horg' hk hres
    obtain ⟨r, hr, rfl⟩ := List.mem_map.mp hr'
    obtain ⟨-, horg₁, hinc₁, hreason₁, -, hat₁⟩ := (hstep r).keeps
    rw [hat, hat₁]
    exact hnewer r hr (horg₁.symm.trans horg') (hinc₁.symm.trans hk) (hreason₁.symm.trans hres)

theorem channelOn_delivery {org org' : OrgId} {id c : Uuid} {delivered : Bool} :
    (db.exec lower now (.recordDeliveryOutcome org' id delivered)).2.channelOn org c =
      db.channelOn org c :=
  Table.any_find?_update (by intro r; split <;> rfl) (by intro r; split <;> rfl)
    db.settings.channels

end Db

section
variable {lower : String → String} {wk : Worker} {org : OrgId} {tid k : Uuid}
  {onCall : Uuid → List UserId} {me : Nat} {α : Type} {w : World (machine lower) Tag}

/-! ## A round of paging -/

/-- The channels are on or off as they were in `db₀`, and the episode has a page when `b`
holds. -/
structure Db.Tells (p : Episode) (db₀ : Db) (b : Prop) (db : Db) : Prop where
  on : ∀ c, db.channelOn p.org c = db₀.channelOn p.org c
  since : p.since ≤ db.nextId
  told : p.Told db ↔ b

section
variable {p : Episode} {db₀ db : Db} {b b' : Prop} {now : Time} {o : StoreOp}

theorem Db.Tells.congr (h : Db.Tells p db₀ b db) (hb : b ↔ b') : Db.Tells p db₀ b' db :=
  ⟨h.on, h.since, h.told.trans hb⟩

theorem Db.Tells.exec (h : Db.Tells p db₀ b db) (hdelete : ∀ org id, o ≠ .deleteChannel org id)
    (hrecord : ∀ m, o = .recordNotification m → m.org = p.org → m.incidentId = p.incidentId →
      m.channelId = none)
    (hon : ∀ c, (db.exec lower now o).2.channelOn p.org c = db.channelOn p.org c) :
    Db.Tells p db₀ b (db.exec lower now o).2 :=
  ⟨fun c => (hon c).trans (h.on c), le_trans h.since (Db.exec_nextId lower now o db),
    (Db.told_exec hdelete hrecord).trans h.told⟩

theorem Db.channelOn_of_settings {db' : Db} (h : db'.settings = db.settings) (org : OrgId)
    (c : Uuid) : db'.channelOn org c = db.channelOn org c := by
  simp only [Db.channelOn, Db.channel, h]

theorem RestCall.settings (h : RestCall org k (.store o)) :
    (db.exec lower now o).2.settings = db.settings := by
  cases h with
  | quiet h =>
    cases h with
    | read hread =>
      obtain ⟨a, ha⟩ := Db.exec_read hread lower now db
      rw [ha]
    | own h => cases h
    | clear => rfl
  | marker => rfl
  | event _ => exact (Db.exec_aside rfl).2.1
  | arm => exact (Db.exec_aside rfl).2.1
  | rearm => exact (Db.exec_aside rfl).2.1
  | bump => exact (Db.exec_aside rfl).2.1

theorem RestCall.records_none {m : NewIncidentNotification}
    (h : RestCall org k (.store (.recordNotification m))) : m.channelId = none := by
  cases h with
  | quiet h => cases h with
    | read h => cases h
    | own h => cases h
  | marker => rfl

theorem RestCall.not_delete (h : RestCall org k (.store o)) (org' : OrgId) (id : Uuid) :
    o ≠ .deleteChannel org' id := by
  rintro rfl
  cases h with
  | quiet h => cases h with
    | read h => cases h
    | own h => cases h

theorem Db.Tells.rest (h : Db.Tells p db₀ b db) (ho : RestCall p.org k (.store o)) :
    Db.Tells p db₀ b (db.exec lower now o).2 := by
  refine h.exec ho.not_delete (fun m hm _ _ => ?_) fun c => Db.channelOn_of_settings ho.settings _ c
  subst hm
  exact ho.records_none

/-- The logic of code that tells nobody. -/
def telling (lower : String → String) (wk : Worker) (tid : Uuid) (onCall : Uuid → List UserId)
    (me : Nat) (p : Episode) (db₀ : Db) (b : Prop) : RestLogic p.org p.incidentId :=
  smoothlyRest lower wk p.org p.incidentId tid onCall me (Db.Tells p db₀ b)
    fun _ _ _ ho h => h.rest ho

theorem telling_canSend {reason : NotificationReason} :
    (telling lower wk tid onCall me p db₀ b).CanSend p.incidentId reason where
  notify := fun _ _ _ w hw w₁ hw₁ c r w₂ hc hA => by
    refine ⟨trivial, fun w' hw' => ⟨r, rfl, trivial, ?_⟩⟩
    cases hw₁
    cases hw'
    rw [call_db_of_not_store hc (by intro so h; cases h)]
    exact hw
  mark := fun id oc w hw => wpOk_mono (smooth_keep (fun db now => ⟨_, rfl⟩)
    (fun db now h => h.exec (by intro _ _ h; cases h) (by intro _ h; cases h) fun _ => rfl) hw)
    fun _ _ h => ⟨trivial, h.2⟩
  health := fun cid delivered w hw => wpOk_mono (smooth_keep (fun db now => ⟨_, rfl⟩)
    (fun db now h => h.exec (by intro _ _ h; cases h) (by intro _ h; cases h)
      fun _ => Db.channelOn_delivery) hw)
    fun _ _ h => ⟨trivial, h.2⟩

theorem Db.reached_cons {c : Uuid} {cs : List Uuid} :
    db.Reached org (c :: cs) ↔ db.channelOn org c = true ∨ db.Reached org cs := by
  simp only [Db.Reached, List.mem_cons, exists_eq_or_imp]

theorem pageChannels_tells {notice : IncidentNotice} {reason : NotificationReason} (level : Int)
    (hid : notice.incidentId = p.incidentId) (hreason : notice.reason = reason)
    (hopen : reason.isOpenSide = true) :
    ∀ (targets : List PageTarget) (paged : Paged) (b : Prop) (w : World (machine lower) Tag),
      Db.Tells p db₀ b w.store.db →
      wpOk (smoothContract wk p.org tid onCall me) me
        (wk.pageChannels p.org p.incidentId notice reason level targets paged)
        (fun _ w => Db.Tells p db₀ (b ∨ db₀.Reached p.org (channelsOf targets)) w.store.db) w
  | [], _, b, w, hw => smooth_pure (hw.congr (by simp [Db.Reached, channelsOf]))
  | t :: rest, paged, b, w, hw => by
    have ih := pageChannels_tells level hid hreason hopen rest
    -- a channel that is gone or off leaves the round where it was
    have hskip : db₀.channelOn p.org t.channelId = false → ∀ w' : World (machine lower) Tag,
        w'.store.db = w.store.db →
        wpOk (smoothContract wk p.org tid onCall me) me
          (wk.pageChannels p.org p.incidentId notice reason level rest paged)
          (fun _ w => Db.Tells p db₀ (b ∨ db₀.Reached p.org (channelsOf (t :: rest))) w.store.db)
          w' := by
      intro hoff w' hsame
      refine wpOk_mono (ih paged b w' (hsame ▸ hw)) fun _ _ h => h.congr (or_congr_right ?_)
      rw [show channelsOf (t :: rest) = t.channelId :: channelsOf rest from rfl, Db.reached_cons,
        hoff]
      simp
    unfold Worker.pageChannels
    refine smooth_read rfl fun r w' hsame hexec hA => ?_
    have hr : r = w.store.db.channel p.org t.channelId := by
      cases hexec
      rfl
    have hon : db₀.channelOn p.org t.channelId = r.any (·.enabled) := by
      rw [hr]
      exact (hw.on _).symm
    split
    · exact hskip hon w' hsame
    · next channel =>
      split
      · next hdisabled =>
        refine hskip ?_ w' hsame
        simpa [hon] using hdisabled
      · next henabled =>
        have hon' : db₀.channelOn p.org t.channelId = true := by
          simpa [hon] using henabled
        refine wpOk_bind (smooth_call (fun now => ⟨_, rfl⟩) fun id w₁ hexec₁ _ => ?_)
        have htells : Db.Tells p db₀ True w₁.store.db := by
          have hw' : Db.Tells p db₀ b w'.store.db := hsame ▸ hw
          have hdb := congrArg Prod.snd hexec₁
          dsimp only at hdb
          rw [← hdb]
          refine ⟨fun c => (Db.channelOn_of_settings rfl _ c).trans (hw'.on c),
            le_trans hw'.since (Db.exec_nextId ..), iff_of_true ?_ trivial⟩
          exact Db.told_record hw'.since rfl rfl rfl hopen
        obtain ⟨c, -, hc⟩ := hA.ran
        have horg : channel.org = p.org := ((store_ok hc).2.1 channel rfl).1
        have hsend : (telling lower wk tid onCall me p db₀ True).Runs
            (wk.sendAndMark p.org channel notice id 1) :=
          sendAndMark_runs wk telling_canSend id 1 horg hid hreason
        refine wpOk_bind (wpOk_mono (hsend w₁ htells) fun status w₂ h₂ => ?_)
        refine wpOk_mono (ih _ True w₂ h₂.2) fun _ _ h => h.congr ?_
        refine iff_of_true (.inl trivial) (.inr ⟨t.channelId, List.mem_cons_self, hon'⟩)

/-! ## A reopened incident -/

theorem Db.Reached.congr {cs cs' : List Uuid} (h : ∀ c, c ∈ cs ↔ c ∈ cs') :
    db.Reached org cs ↔ db.Reached org cs' := by
  simp only [Db.Reached, h]

theorem Db.tells_of_eq (hsince : p.since ≤ db₀.nextId) (huntold : ¬ p.Told db₀) (h : db = db₀) :
    Db.Tells p db₀ False db := by
  subst h
  exact ⟨fun _ => rfl, hsince, iff_false_intro huntold⟩

theorem told_of_runs {x : Job α} (hw : Db.Tells p db₀ b w.store.db)
    (hx : (telling lower wk tid onCall me p db₀ b).Runs x) :
    wpOk (smoothContract wk p.org tid onCall me) me x (fun _ w => p.Told w.store.db ↔ b) w :=
  wpOk_mono (hx w hw) fun _ _ h => h.2.told

theorem Db.reached_of_settings {db' : Db} (h : db'.settings = db.settings) (t : Target) :
    db'.Reached org (db'.destination lower onCall org t) ↔
      db.Reached org (db.destination lower onCall org t) := by
  simp only [Db.Reached, Db.channelOn_of_settings h, Db.destination, Db.resolveForTarget, Db.target,
    Db.policy, Db.autoBoundIds, h]

/-- The settings are those of `db₀` too. -/
structure Db.Fresh (p : Episode) (db₀ db : Db) : Prop extends Db.Tells p db₀ False db where
  settings : db.settings = db₀.settings

theorem Db.Fresh.rest (h : Db.Fresh p db₀ db) (ho : RestCall p.org k (.store o)) :
    Db.Fresh p db₀ (db.exec lower now o).2 :=
  ⟨h.toTells.rest ho, ho.settings.trans h.settings⟩

theorem Db.active_clearReceipt (db : Db) (org : OrgId) (id k : Uuid) :
    openEpisodeActive ((db.clearReceipt org id).notificationsFor org k) =
      openEpisodeActive (db.notificationsFor org k) := by
  rcases Db.exec_notifications (fun s => s) 0 (.clearReceipt org id) db with ⟨m, hm, -⟩ | h
  · cases hm
  · exact Db.active_reworks h

theorem Db.Fresh.clearReceipt (h : Db.Fresh p db₀ db) (id : Uuid) :
    Db.Fresh p db₀ (db.clearReceipt p.org id) := by
  have hclear : RestCall p.org p.incidentId (.store (.clearReceipt p.org id)) := .quiet .clear
  change Db.Fresh p db₀ (db.exec (fun s => s) 0 (.clearReceipt p.org id)).2
  exact h.rest hclear

section
variable {incident : OpsIncident} {reason : NotificationReason} {target : Target}
  (hid : incident.id = p.incidentId) (hopen : reason.isOpenSide = true)
  (hsince : p.since ≤ w.store.db.nextId) (huntold : ¬ p.Told w.store.db)
include hid hopen hsince huntold

theorem openFlat_told {notice : IncidentNotice} (hnotice : notice.incidentId = p.incidentId)
    (hreason : notice.reason = reason) :
    wpOk (smoothContract wk p.org tid onCall me) me
      (wk.openFlat p.org incident target notice reason)
      (fun _ w' => p.Told w'.store.db ↔ w.store.db.Reached p.org
        (target.alerts.channelIds ++ w.store.db.autoBoundIds lower p.org target.tags)) w := by
  refine wpOk_bind (wpOk_mono (pagingChannelIds_answers target w rfl) ?_)
  rintro ids w₁ ⟨hids, hsame⟩
  have htells : Db.Tells p w.store.db False w₁.store.db := Db.tells_of_eq hsince huntold hsame
  rw [hid]
  refine wpOk_bind (wpOk_mono
    (pageChannels_tells 0 hnotice hreason hopen (channelTargets ids) ⟨0, 0⟩ False w₁ htells) ?_)
  intro paged w₂ h₂
  have hb : (False ∨ w.store.db.Reached p.org (channelsOf (channelTargets ids))) ↔
      w.store.db.Reached p.org
        (target.alerts.channelIds ++ w.store.db.autoBoundIds lower p.org target.tags) := by
    rw [false_or, ← Db.Reached.congr hids]
    simp [channelsOf, channelTargets, Function.comp_def]
  refine wpOk_mono (told_of_runs h₂ ?_) fun _ _ h => h.trans hb
  refine runs_bind (logPaged_runs _ _) fun _ => ?_
  split
  · exact runs_rest_bind .marker fun _ => runs_pure
  · exact runs_pure

theorem openLadder_told {notice : IncidentNotice} (policyId : Uuid)
    (hnotice : notice.incidentId = p.incidentId) (hreason : notice.reason = reason) :
    wpOk (smoothContract wk p.org tid onCall me) me
      (wk.openLadder p.org incident notice reason policyId)
      (fun _ w' => p.Told w'.store.db ↔ w.store.db.Reached p.org
        (match w.store.db.policy p.org policyId with
          | none => []
          | some policy => policy.firstRung (w.store.db.settings.contacts p.org) onCall)) w := by
  have hnobody : ¬ w.store.db.Reached p.org [] := by simp [Db.Reached]
  refine smooth_read rfl fun r w₁ hsame hexec _ => ?_
  cases hexec
  rw [hid]
  cases w.store.db.policy p.org policyId with
  | none => exact smooth_pure (iff_of_false (hsame ▸ huntold) hnobody)
  | some policy =>
    have htells : Db.Tells p w.store.db False w₁.store.db := Db.tells_of_eq hsince huntold hsame
    dsimp only [EscalationPolicy.firstRung]
    cases nextStep policy.steps policy.repeatCount 0 0 with
    | exhausted =>
      refine wpOk_mono (told_of_runs htells ?_) fun _ _ h => h.trans (iff_of_false id hnobody)
      exact runs_rest_bind .arm fun _ => runs_pure
    | page level round delaySecs =>
      refine smooth_await (by intro so h; cases h) fun at_ w₂ hsame₂ _ => ?_
      refine wpOk_bind (wpOk_mono
        (resolveTargets_answers policy level at_ w₂ (hsame₂.trans hsame)) ?_)
      rintro targets w₃ ⟨htargets, hsame₃⟩
      have htells₃ : Db.Tells p w.store.db False w₃.store.db :=
        Db.tells_of_eq hsince huntold hsame₃
      have hnote : (telling lower wk tid onCall me p w.store.db False).Runs
          (noteIfEmpty p.org p.incidentId level targets) := noteIfEmpty_runs level targets
      refine wpOk_bind (wpOk_mono (hnote w₃ htells₃) fun _ w₄ h₄ => ?_)
      refine wpOk_bind (wpOk_mono
        (pageChannels_tells level hnotice hreason hopen targets ⟨0, 0⟩ False w₄ h₄.2) ?_)
      intro paged w₅ h₅
      refine wpOk_mono (told_of_runs h₅ ?_) fun _ _ h => h.trans ?_
      · refine runs_bind runs_now fun now => ?_
        exact runs_rest_bind .arm fun _ => logPaged_runs _ _
      · rw [false_or, Db.Reached.congr htargets]

theorem openDestination_told (note : Option String) :
    wpOk (smoothContract wk p.org tid onCall me) me
      (wk.openDestination p.org incident target reason note)
      (fun _ w' => p.Told w'.store.db ↔ w.store.db.Reached p.org
        (w.store.db.destination lower onCall p.org target)) w := by
  refine smooth_read rfl fun r w₁ hsame hexec _ => ?_
  cases hexec
  rw [← hsame] at hsince huntold ⊢
  unfold Db.destination
  cases w₁.store.db.resolveForTarget p.org target.id with
  | none => exact openFlat_told hid hopen hsince huntold hid rfl
  | some policyId => exact openLadder_told hid hopen hsince huntold policyId hid rfl

theorem openDamped_told (htid : target.id = tid) :
    wpOk (smoothContract wk p.org tid onCall me) me
      (wk.openDamped p.org incident target reason .apply)
      (fun _ w' => p.Told w'.store.db ↔ w.store.db.Reached p.org
        (w.store.db.destination lower onCall p.org target)) w := by
  unfold Worker.openDamped
  split
  · refine wpOk_bind (wpOk_mono (flapState_answers htid w rfl) ?_)
    rintro s w₁ ⟨hs, hsame⟩
    split
    · rw [← hsame] at hsince huntold ⊢
      exact openDestination_told hid hopen hsince huntold none
    · -- the notice on the timeline leaves the settings and the ledger alone
      have hnote : (smoothlyRest lower wk p.org p.incidentId tid onCall me
          (Db.Fresh p w.store.db) fun _ _ _ ho h => h.rest ho).Runs
          (wk.noteFlapEngaged p.org p.incidentId target) := runs_rest (.event rfl)
      rw [hid]
      have hfresh₁ : Db.Fresh p w.store.db w₁.store.db :=
        ⟨Db.tells_of_eq hsince huntold hsame, by rw [hsame]⟩
      refine wpOk_bind (wpOk_mono (hnote w₁ hfresh₁) ?_)
      rintro _ w₂ ⟨-, hfresh⟩
      refine wpOk_mono (openDestination_told hid hopen hfresh.since hfresh.told.mp _) ?_
      intro _ _ h
      exact h.trans (Db.reached_of_settings hfresh.settings target)
    · exact absurd rfl hs
  · exact openDestination_told hid hopen hsince huntold none

theorem openEpisode_told (htid : target.id = tid) :
    wpOk (smoothContract wk p.org tid onCall me) me
      (wk.openEpisode p.org incident target reason .apply)
      (fun _ w' => p.Told w'.store.db ↔
        openEpisodeActive (w.store.db.notificationsFor p.org p.incidentId) = false ∧
          w.store.db.Reached p.org (w.store.db.destination lower onCall p.org target)) w := by
  refine smooth_read rfl fun rows w₁ hsame hexec _ => ?_
  cases hexec
  rw [← hsame] at hsince huntold ⊢
  rw [hid]
  cases openEpisodeActive (w₁.store.db.notificationsFor p.org p.incidentId) with
  | true => exact smooth_pure (iff_of_false huntold (by simp))
  | false =>
    simp only [Bool.false_eq_true, ↓reduceIte, reduceCtorEq, false_and, true_and]
    refine wpOk_bind (wpOk_mono (maintenanceHolds_answers incident htid w₁ rfl) ?_)
    rintro held w₂ ⟨rfl, hsame₂⟩
    rw [← hsame₂] at hsince huntold ⊢
    exact openDamped_told hid hopen hsince huntold htid

omit hopen in
theorem pageReopened_told (htid : target.id = tid) (hwatched : target.watched = true) :
    wpOk (smoothContract wk p.org tid onCall me) me
      (wk.pageTarget p.org incident target .reopened .apply)
      (fun _ w' => p.Told w'.store.db ↔
        openEpisodeActive (w.store.db.notificationsFor p.org p.incidentId) = false ∧
          w.store.db.Reached p.org (w.store.db.destination lower onCall p.org target)) w := by
  unfold Worker.pageTarget
  rw [hwatched]
  have hcancel : (smoothly lower wk p.org tid onCall me (fun db => Db.Fresh p w.store.db db ∧
      openEpisodeActive (db.notificationsFor p.org p.incidentId) =
        openEpisodeActive (w.store.db.notificationsFor p.org p.incidentId))
      fun db id h => ⟨h.1.clearReceipt id, (Db.active_clearReceipt db p.org id _).trans h.2⟩).Runs
      (cancelEmergency p.org incident.id) := cancelEmergency_runs incident.id
  have hfresh : Db.Fresh p w.store.db w.store.db := ⟨Db.tells_of_eq hsince huntold rfl, rfl⟩
  refine wpOk_bind (wpOk_mono (hcancel w ⟨hfresh, rfl⟩) ?_)
  rintro _ w₁ ⟨-, hfresh₁, hactive⟩
  refine wpOk_mono (openEpisode_told hid rfl hfresh₁.since hfresh₁.told.mp htid) fun _ _ h => ?_
  rw [h, hactive, Db.reached_of_settings hfresh₁.settings target]

end

end

/-! ## The handling as a whole -/

theorem page_reopened_told {p : Episode} {incident : OpsIncident} {target : Target}
    (hget : w.store.db.get p.org p.incidentId = some incident)
    (htid : incident.targetId = some tid) (htarget : w.store.db.target p.org tid = some target)
    (hwatched : target.watched = true) (hsince : p.since ≤ w.store.db.nextId)
    (huntold : ¬ p.Told w.store.db) :
    wpOk (smoothContract wk p.org tid onCall me) me (wk.page p.org p.incidentId .reopened)
      (fun _ w' => p.Told w'.store.db ↔
        openEpisodeActive (w.store.db.notificationsFor p.org p.incidentId) = false ∧
          w.store.db.Reached p.org (w.store.db.destination lower onCall p.org target)) w := by
  unfold Worker.page Worker.pageWith
  refine smooth_locked fun w₁ hsame => ?_
  refine smooth_read rfl fun r w₂ hsame₂ hexec hA => ?_
  have hr : r = some incident := by
    cases hexec
    rw [hsame]
    exact hget
  have hid : incident.id = p.incidentId := by
    obtain ⟨c, -, hc⟩ := hA.ran
    exact (store_ok hc).2.1 incident hr
  subst hr
  dsimp only
  rw [htid]
  refine smooth_read rfl fun r w₃ hsame₃ hexec hA => ?_
  have hr : r = some target := by
    cases hexec
    rw [hsame₂, hsame]
    exact htarget
  have htid' : target.id = tid := by
    obtain ⟨c, -, hc⟩ := hA.ran
    exact ((store_ok hc).2.1 target hr).2
  subst hr
  have hsame' : w₃.store.db = w.store.db := hsame₃.trans (hsame₂.trans hsame)
  rw [← hsame'] at hsince huntold ⊢
  refine wpOk_mono (pageReopened_told hid hsince huntold htid' hwatched) fun _ w₄ h w₅ hw₅ => ?_
  rw [hw₅]
  exact h

end

/-! ## Reopened incidents -/

/-- **When a reopened incident pages.**  In every state a run can reach, for an incident of a
watched monitor: the handling of a Reopened signal can be run to its end; and where its calls
go through and no window and no damper holds it, it records a page on a channel exactly when
no open-side page of the incident is newer than its newest resolution and a channel the new
episode starts with is on. -/
theorem reopen_pages_iff (lower : String → String) (wk : Worker) (db : Db) (clock : Time)
    (hkeyed : db.Keyed) (e : Engine lower)
    (hrun : Run (Engine.step wk) (fun _ _ => True) (Engine.boot lower db clock) e) (org : OrgId)
    (k tid : Uuid) (onCall : Uuid → List UserId) (me : Nat) (incident : OpsIncident)
    (target : Target) (hfree : e.sys.locks (pageLock k) = none)
    (hget : e.db.get org k = some incident) (htid : incident.targetId = some tid)
    (htarget : e.db.target org tid = some target) (hwatched : target.watched = true) :
    (∃ r w', Solo (Ran me) me (wk.page org k .reopened) e.pool.world r w') ∧
      ∀ r w', Solo (Smooth wk org tid onCall me) me (wk.page org k .reopened) e.pool.world r w' →
        r = .ok () ∧
          ((⟨org, k, e.db.nextId⟩ : Episode).Told w'.store.db ↔
            openEpisodeActive (e.db.notificationsFor org k) = false ∧
              e.db.Reached org (e.db.destination lower onCall org target)) := by
  have hsound : e.Sound := hrun.invariant (Engine.sound_boot hkeyed clock)
    fun _ _ _ hi _ hstep => Engine.sound_step hi hstep
  refine ⟨page_runs_alone wk .reopened hfree, fun r w' hsolo => ?_⟩
  have huntold : ¬ (⟨org, k, e.db.nextId⟩ : Episode).Told e.db := by
    rintro ⟨n, hn, hrow, -⟩
    exact Nat.not_lt.mpr hrow.2.2 (hsound.keyed.notifications_lt n hn)
  obtain ⟨u, rfl, h⟩ := solo_post hsolo (page_reopened_told (p := ⟨org, k, e.db.nextId⟩) hget htid
    htarget hwatched (le_refl e.db.nextId) huntold)
  exact ⟨rfl, h⟩

namespace Sample

/-- An incident is paged, resolved (its all-clear takes `n` calls) and opened again; the last
signal is still to be handled. -/
def reopening (n : Nat) : List Label :=
  opening ++ go 1 17 ++ ([.request (.resolve 1 1000 (.user 5) none)] : List Label) ++ go 2 3 ++
  ([.recv] : List Label) ++ go 3 n ++ ([.request (.reopen 1 1000 (.user 5) none)] : List Label) ++
  go 4 3

/-- The handling of the Reopened signal, when it is the one thing left to do. -/
def handled (e : Engine id) : Option (World (machine id) Tag) :=
  if e.sys.signals = [⟨1, 1000, .reopened⟩] then
    (soloEval (smoothNow worker 1 7) 5 Choice.calm (worker.page 1 1000 .reopened)
      e.pool.world).bind fun r => r.1.toOption.map fun _ => r.2
  else none

theorem solo_of_handled {e : Engine id} {w' : World (machine id) Tag} (h : handled e = some w') :
    Solo (Smooth worker 1 7 (fun _ => []) 5) 5 (worker.page 1 1000 .reopened) e.pool.world
      (.ok ()) w' := by
  unfold handled at h
  split at h
  · obtain ⟨⟨r, w₁⟩, hr, hok⟩ := Option.bind_eq_some_iff.mp h
    cases r with
    | error _ => cases hok
    | ok u =>
      cases hok
      exact Solo.of_eval smooth_of_smoothNow hr
  · cases h

/-- The monitor can be paged, and the handling leads to a state with property `P`. -/
def pageable (P : Engine id → World (machine id) Tag → Bool) (e : Engine id) : Bool :=
  (e.sys.locks (pageLock 1000)).isNone && ((e.db.get 1 1000).any fun i => i.targetId == some 7) &&
    ((e.db.target 1 7).any fun t => t.watched &&
      decide (e.db.Reached 1 (e.db.destination id (fun _ => []) 1 t))) &&
    (handled e).any (P e)

theorem of_pageable {P : Engine id → World (machine id) Tag → Bool} {e : Engine id}
    (h : pageable P e = true) :
    ∃ incident target w', e.sys.locks (pageLock 1000) = none ∧ e.db.get 1 1000 = some incident ∧
      incident.targetId = some 7 ∧ e.db.target 1 7 = some target ∧ target.watched = true ∧
      e.db.Reached 1 (e.db.destination id (fun _ => []) 1 target) ∧ handled e = some w' ∧
      P e w' = true := by
  simp only [pageable, Bool.and_eq_true, Option.isNone_iff_eq_none, Option.any_eq_true,
    beq_iff_eq, decide_eq_true_eq] at h
  obtain ⟨⟨⟨hfree, incident, hget, htid⟩, target, htarget, hwatched, hreached⟩, w', hw', hP⟩ := h
  exact ⟨incident, target, w', hfree, hget, htid, htarget, hwatched, hreached, hw', hP⟩

end Sample

/-- The all-clear was sent: the reopened incident pages again. -/
theorem reopen_pages_iff_recovered : ∃ (e : Engine id) (w' : World (machine id) Tag),
    Solo (Smooth Sample.worker 1 7 (fun _ => []) 5) 5 (Sample.worker.page 1 1000 .reopened)
      e.pool.world (.ok ()) w' ∧ (⟨1, 1000, e.db.nextId⟩ : Episode).Told w'.store.db := by
  have h : (steps (Engine.step Sample.worker) (Engine.boot id Sample.flat 1)
      (Sample.reopening 13)).any (Sample.pageable fun e _ =>
        !openEpisodeActive (e.db.notificationsFor 1 1000)) = true := by
    decide +kernel
  obtain ⟨e, hrun, he⟩ := exists_run_of_steps h
  obtain ⟨incident, target, w', hfree, hget, htid, htarget, hwatched, hreached, hw', hidle⟩ :=
    Sample.of_pageable he
  have hsolo := Sample.solo_of_handled hw'
  have hiff := (reopen_pages_iff id Sample.worker Sample.flat 1 Sample.flat_keyed e hrun 1 1000 7
    (fun _ => []) 5 incident target hfree hget htid htarget hwatched).2 _ w' hsolo
  exact ⟨e, w', hsolo, hiff.2.mpr ⟨by simpa using hidle, hreached⟩⟩

/-- The monitor without recovery notices. -/
def Sample.unannounced : Db :=
  Sample.db { Sample.target Sample.alerts none with notifyRecovery := false } [] []

example : (Sample.unannounced.target 1 7).any Target.watched = true := by decide +kernel

/-- An incident of a monitor without recovery notices is paged, resolved and reopened, its
Resolved signal handled: the Reopened signal is handled, and nobody is paged. -/
theorem reopen_unpaged : ∃ (e : Engine id) (target : Target) (w' : World (machine id) Tag),
    Run (Engine.step Sample.worker) (fun _ _ => True) (Engine.boot id Sample.unannounced 1) e ∧
      e.db.events.map (·.kind) = [.notified, .resolved, .reopened] ∧
      e.db.target 1 7 = some target ∧ target.watched = true ∧
      e.db.Reached 1 (e.db.destination id (fun _ => []) 1 target) ∧
      Solo (Smooth Sample.worker 1 7 (fun _ => []) 5) 5 (Sample.worker.page 1 1000 .reopened)
        e.pool.world (.ok ()) w' ∧
      ¬ (⟨1, 1000, e.db.nextId⟩ : Episode).Told w'.store.db := by
  have h : (steps (Engine.step Sample.worker) (Engine.boot id Sample.unannounced 1)
      (Sample.reopening 5)).any (Sample.pageable fun e w' =>
        decide (e.db.events.map (·.kind) = [.notified, .resolved, .reopened]) &&
          !decide ((⟨1, 1000, e.db.nextId⟩ : Episode).Told w'.store.db)) = true := by
    decide +kernel
  obtain ⟨e, hrun, he⟩ := exists_run_of_steps h
  obtain ⟨incident, target, w', -, -, -, htarget, hwatched, hreached, hw', hP⟩ :=
    Sample.of_pageable he
  simp only [Bool.and_eq_true, decide_eq_true_eq, Bool.not_eq_true', decide_eq_false_iff_not] at hP
  exact ⟨e, target, w', hrun, hP.1, htarget, hwatched, hreached, Sample.solo_of_handled hw', hP.2⟩

end Uptimepage
