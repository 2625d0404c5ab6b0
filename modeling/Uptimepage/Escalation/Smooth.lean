import Uptimepage.Escalation.Contracts

/-!
# Handlings with nobody in their way

Some of what is asked of a handling is that it gets something done: given that its calls go
through (`Smooth`), it ends, and in a state that can be told from the one it began in.
`wpOk` is the weakest precondition for this, and `smoothly` makes it a logic the engine's
functions have already been gone through for.
-/

namespace Uptimepage

open Async Async.Fallible Job QuietLogic

/-! ## Who an episode pages -/

def EscalationTarget.channels (contacts : UserId → List Uuid) (onCall : Uuid → List UserId)
    (t : EscalationTarget) : List Uuid :=
  match t.targetType with
  | .channel => t.channelId.toList
  | .user => t.userId.toList.flatMap contacts
  | .schedule => (t.scheduleId.toList.flatMap onCall).flatMap contacts

def EscalationPolicy.rung (contacts : UserId → List Uuid) (onCall : Uuid → List UserId)
    (policy : EscalationPolicy) (level : Int) : List Uuid :=
  match policy.steps.find? fun s => s.level == level with
  | none => []
  | some step => step.targets.flatMap fun t => t.channels contacts onCall

/-- The channels of the rung an episode starts with. -/
def EscalationPolicy.firstRung (contacts : UserId → List Uuid) (onCall : Uuid → List UserId)
    (policy : EscalationPolicy) : List Uuid :=
  match nextStep policy.steps policy.repeatCount 0 0 with
  | .exhausted => []
  | .page level _ _ => policy.rung contacts onCall level

namespace Db

/-- The channels a new episode of the monitor pages: the first rung of its policy, else the
channels bound to it. -/
def destination (db : Db) (lower : String → String) (onCall : Uuid → List UserId) (org : OrgId)
    (t : Target) : List Uuid :=
  match db.resolveForTarget org t.id with
  | none => t.alerts.channelIds ++ db.autoBoundIds lower org t.tags
  | some policyId =>
    match db.policy org policyId with
    | none => []
    | some policy => policy.firstRung (db.settings.contacts org) onCall

def channelOn (db : Db) (org : OrgId) (c : Uuid) : Bool := (db.channel org c).any (·.enabled)

/-- One of the channels is. -/
def Reached (db : Db) (org : OrgId) (cs : List Uuid) : Prop := ∃ c ∈ cs, db.channelOn org c = true

instance (db : Db) (org : OrgId) (cs : List Uuid) : Decidable (db.Reached org cs) :=
  inferInstanceAs (Decidable (∃ c ∈ cs, db.channelOn org c = true))

end Db

/-! ## A handling with nobody in its way -/

section
variable {lower : String → String}

/-- The call goes through. -/
def Ran (me : Nat) (o : Op) (w : World (machine lower) Tag) (r : o.Res)
    (w' : World (machine lower) Tag) : Prop :=
  ∃ c, c.fails = false ∧ w.call me o c = some (r, w')

/-- The calls of a handling for a monitor that no window and no damper holds, with `onCall`
on call. -/
structure Smooth (wk : Worker) (org : OrgId) (tid : Uuid) (onCall : Uuid → List UserId) (me : Nat)
    (o : Op) (w : World (machine lower) Tag) (r : o.Res) (w' : World (machine lower) Tag) :
    Prop where
  ran : Ran me o w r w'
  unsuppressed : o = .store (.alertsSuppressed org tid) →
    w.store.db.alertsSuppressed w'.store.clock org tid = false
  steady : ∀ since, o = .store (.opensSince org tid since) →
    flapState (w.store.db.opensSince org tid since) wk.cfg.flapMaxOpens ≠ .damped
  cached : ∀ sid users, o = .cachedRoster org sid →
    w.store.roster w'.store.clock org sid = some users → users = onCall sid
  resolved : ∀ sid at_, o = .store (.resolveNow org sid at_) →
    w.store.db.settings.onCall org sid at_ = onCall sid

/-- The contract of such a handling. -/
def smoothContract (wk : Worker) (org : OrgId) (tid : Uuid) (onCall : Uuid → List UserId)
    (me : Nat) : Contract (machine lower) Tag := Contract.alone (Smooth wk org tid onCall me)

variable {wk : Worker} {org : OrgId} {tid k : Uuid} {onCall : Uuid → List UserId} {me : Nat}
  {α β : Type} {Q : α → World (machine lower) Tag → Prop}
  {Q' : β → World (machine lower) Tag → Prop} {w : World (machine lower) Tag}

theorem smooth_pure {a : α} (h : Q a w) :
    wpOk (smoothContract wk org tid onCall me) me (pure a : Job α) Q w := by
  refine wpOk_pure ?_
  rintro w' rfl
  exact h

variable {x : Job α} {o : StoreOp} {w' : World (machine lower) Tag}

theorem smooth_attempt {Q : Except StoreError α → World (machine lower) Tag → Prop}
    (h : wpOk (smoothContract wk org tid onCall me) me x (fun a w => Q (.ok a) w) w) :
    wpOk (smoothContract wk org tid onCall me) me x.attempt Q w := by
  refine wpOk_attempt (wpOk_mono h ?_)
  rintro a w₁ h w₂ rfl
  exact h

theorem smooth_call {Q : o.Ret → World (machine lower) Tag → Prop}
    (hok : ∀ now, ∃ a, (w.store.db.exec lower now o).1 = .ok a)
    (h : ∀ a w', w.store.db.exec lower w'.store.clock o = (.ok a, w'.store.db) →
      Smooth wk org tid onCall me (.store o) w (.ok a : Except StoreError o.Ret) w' → Q a w') :
    wpOk (smoothContract wk org tid onCall me) me (store o) Q w := by
  rintro w₁ rfl c r w₂ hc hA
  refine ⟨trivial, ?_⟩
  obtain ⟨c', hf, hc'⟩ := hA.ran
  rcases Sys.call_store (world_call hc').1 with ⟨hfails, -⟩ | ⟨-, rfl, hs⟩
  · rw [hf] at hfails
    cases hfails
  · obtain ⟨a, ha⟩ := hok (w₁.store.tick c')
    have hexec : w₁.store.db.exec lower w₂.store.clock o = (.ok a, w₂.store.db) := by
      rw [hs]
      exact Prod.ext ha rfl
    rw [ha] at hA ⊢
    rintro w' rfl
    exact ⟨a, rfl, h a w' hexec hA⟩

theorem Db.exec_read (h : o.reads = true) (lower : String → String) (now : Time) (db : Db) :
    ∃ a, db.exec lower now o = (.ok a, db) := by
  cases o <;> first | exact ⟨_, rfl⟩ | cases h

theorem smooth_reads {Q : o.Ret → World (machine lower) Tag → Prop} (hread : o.reads = true)
    (h : ∀ a w', w'.store.db = w.store.db →
      w.store.db.exec lower w'.store.clock o = (.ok a, w.store.db) →
      Smooth wk org tid onCall me (.store o) w (.ok a : Except StoreError o.Ret) w' → Q a w') :
    wpOk (smoothContract wk org tid onCall me) me (store o) Q w := by
  refine smooth_call (fun now => ?_) fun a w' hexec hA => ?_
  · obtain ⟨a, ha⟩ := Db.exec_read hread lower now w.store.db
    exact ⟨a, congrArg Prod.fst ha⟩
  · obtain ⟨a', ha'⟩ := Db.exec_read hread lower w'.store.clock w.store.db
    have hsame : w'.store.db = w.store.db := by
      rw [hexec] at ha'
      exact congrArg Prod.snd ha'
    exact h a w' hsame (hsame ▸ hexec) hA

theorem smooth_read {f : o.Ret → Job β} (hread : o.reads = true)
    (h : ∀ a w', w'.store.db = w.store.db →
      w.store.db.exec lower w'.store.clock o = (.ok a, w.store.db) →
      Smooth wk org tid onCall me (.store o) w (.ok a : Except StoreError o.Ret) w' →
      wpOk (smoothContract wk org tid onCall me) me (f a) Q' w') :
    wpOk (smoothContract wk org tid onCall me) me (store o >>= f) Q' w :=
  wpOk_bind (smooth_reads hread h)

theorem call_db_of_not_store {o : Op} {c : Choice} {r : o.Res} (h : w.call me o c = some (r, w'))
    (ho : ∀ so, o ≠ .store so) : w'.store.db = w.store.db := by
  rcases Sys.call_db (world_call h).1 with heq | ⟨so, rfl, -⟩
  · exact heq
  · exact absurd rfl (ho so)

theorem smooth_await {o : Op} {f : o.Res → Job β} (ho : ∀ so, o ≠ .store so)
    (h : ∀ r w', w'.store.db = w.store.db → Smooth wk org tid onCall me o w r w' →
      wpOk (smoothContract wk org tid onCall me) me (f r) Q' w') :
    wpOk (smoothContract wk org tid onCall me) me (await o >>= f) Q' w := by
  refine wpOk_bind ?_
  rintro w₁ rfl c r w₂ hc hA
  refine ⟨trivial, ?_⟩
  rintro w' rfl
  exact ⟨r, rfl, h r w' (call_db_of_not_store hc ho) hA⟩

theorem smooth_locked (h : ∀ w' : World (machine lower) Tag, w'.store.db = w.store.db →
      wpOk (smoothContract wk org tid onCall me) me x (fun a w₁ => ∀ w₂, w₂.store.db = w₁.store.db → Q a w₂) w') :
    wpOk (smoothContract wk org tid onCall me) me (locked k x) Q w := by
  rintro w₁ rfl c r w₂ hc hA
  have hsame := call_db_of_not_store hc (by intro so h; cases h)
  refine ⟨trivial, Contract.wp_bind (Contract.wp_mono ?_ (h w₂ hsame))⟩
  rintro r w₃ ⟨a, rfl, hQ⟩ w₄ rfl c' r' w₅ hc' hA'
  refine ⟨trivial, ?_⟩
  rintro w' rfl
  exact ⟨a, rfl, hQ w' (call_db_of_not_store hc' (by intro so h; cases h))⟩

theorem smooth_keep {J : Db → Prop} (hok : ∀ db now, ∃ a, (Db.exec lower now o db).1 = .ok a)
    (hkeep : ∀ db now, J db → J (Db.exec lower now o db).2) (hJ : J w.store.db) :
    wpOk (smoothContract wk org tid onCall me) me (store o)
      (fun a w => o.Honest a ∧ J w.store.db) w := by
  refine smooth_call (hok w.store.db) fun a w' hexec hA => ⟨?_, ?_⟩
  · obtain ⟨c, -, hc⟩ := hA.ran
    exact Sys.call_honest (world_call hc).1
  · have := hkeep w.store.db w'.store.clock hJ
    rwa [hexec] at this

theorem QuietCall.ok (h : QuietCall org (.store o)) (db : Db) (now : Time) :
    ∃ a, (db.exec lower now o).1 = .ok a := by
  cases h with
  | read hread =>
    obtain ⟨a, ha⟩ := Db.exec_read hread lower now db
    exact ⟨a, congrArg Prod.fst ha⟩
  | own h => cases h
  | clear => exact ⟨_, rfl⟩

theorem QuietCall.answered {r : Except StoreError o.Ret} (ho : QuietCall org (.store o))
    (h : Ran me (.store o) w r w') : ∃ a, r = .ok a := by
  obtain ⟨c, hf, hc⟩ := h
  rcases Sys.call_store (world_call hc).1 with ⟨hfails, -⟩ | ⟨-, rfl, -⟩
  · rw [hf] at hfails
    cases hfails
  · exact ho.ok w.store.db _

/-- Keeping an assertion about the database is a logic of quiet code. -/
def smoothly (lower : String → String) (wk : Worker) (org : OrgId) (tid : Uuid)
    (onCall : Uuid → List UserId) (me : Nat) (J : Db → Prop)
    (hclear : ∀ db id, J db → J (db.clearReceipt org id)) : QuietLogic org :=
  surely (smoothContract wk org tid onCall me : Contract (machine lower) Tag) me
    (fun w => J w.store.db) (by rintro w w' rfl h; exact h)
    (fun o w c r w' ho hJ hc _ => by
      refine ⟨trivial, ?_⟩
      rcases Sys.call_db (world_call hc).1 with heq | ⟨so, rfl, -, heq⟩
      · exact heq ▸ hJ
      · cases ho with
        | read hread =>
          obtain ⟨a, ha⟩ := Db.exec_read hread lower (w.store.tick c) w.store.db
          rw [heq, ha]
          exact hJ
        | own h => cases h
        | clear => exact heq ▸ hclear _ _ hJ)
    fun o w c r w' ho hc hA => ho.answered hA.ran

/-- And of the bookkeeping around a round of paging. -/
def smoothlyRest (lower : String → String) (wk : Worker) (org : OrgId) (k tid : Uuid)
    (onCall : Uuid → List UserId) (me : Nat) (J : Db → Prop)
    (hrest : ∀ o db now, RestCall org k (.store o) → J db → J (Db.exec lower now o db).2) :
    RestLogic org k where
  toQuietLogic := smoothly lower wk org tid onCall me J fun db _ hJ =>
    hrest (.clearReceipt org _) db 0 (.quiet .clear) hJ
  rest := fun {o} ho w hJ => by
    refine smooth_keep (fun db now => ?_) (fun db now => hrest o db now ho) hJ
    cases ho with
    | quiet h => exact h.ok db now
    | _ => exact ⟨_, rfl⟩

/-! ## Whom a rung reaches -/

/-- The channels of a list of page targets. -/
def channelsOf (out : List PageTarget) : List Uuid := out.map (·.channelId)

variable {c : Uuid} {user : Option UserId}

theorem mem_channelsOf_push {out : List PageTarget} {cid : Uuid} :
    c ∈ channelsOf (pushTarget out cid user) ↔ c ∈ channelsOf out ∨ c = cid := by
  unfold pushTarget
  split
  · next h =>
    obtain ⟨t, ht, hcid⟩ := List.any_eq_true.mp h
    have hmem : cid ∈ channelsOf out := List.mem_map.mpr ⟨t, ht, by simpa using hcid⟩
    constructor
    · exact .inl
    · rintro (h | rfl)
      · exact h
      · exact hmem
  · simp [channelsOf]

theorem mem_channelsOf_foldl : ∀ {contacts : List Uuid}
    {out : List PageTarget},
    c ∈ channelsOf (contacts.foldl (fun out cid => pushTarget out cid user) out) ↔
      c ∈ channelsOf out ∨ c ∈ contacts
  | [], out => by simp
  | cid :: rest, out => by
    rw [List.foldl_cons, mem_channelsOf_foldl, mem_channelsOf_push, List.mem_cons, or_assoc]

/-- The job reads, and returns what `R` says of the database it read. -/
def Answers (wk : Worker) (org : OrgId) (tid : Uuid) (onCall : Uuid → List UserId) (me : Nat)
    (lower : String → String) (db : Db) (x : Job α) (R : α → Prop) : Prop :=
  ∀ w : World (machine lower) Tag, w.store.db = db →
    wpOk (smoothContract wk org tid onCall me) me x (fun a w => R a ∧ w.store.db = db) w

section
variable {db : Db} {R : α → Prop} {R' : β → Prop}

theorem answers_pure {a : α} (h : R a) :
    Answers wk org tid onCall me lower db (pure a) R := by
  intro w hw
  exact smooth_pure ⟨h, hw⟩

theorem answers_bind {x : Job α} {f : α → Job β} (hx : Answers wk org tid onCall me lower db x R)
    (hf : ∀ a, R a → Answers wk org tid onCall me lower db (f a) R') :
    Answers wk org tid onCall me lower db (x >>= f) R' := by
  intro w hw
  exact wpOk_bind (wpOk_mono (hx w hw) fun a w' h => hf a h.1 w' h.2)

theorem answers_read {o : StoreOp} {f : o.Ret → Job β} (hread : o.reads = true)
    (h : ∀ a (w w' : World (machine lower) Tag), w.store.db = db →
      db.exec lower w'.store.clock o = (.ok a, db) →
      Smooth wk org tid onCall me (.store o) w (.ok a : Except StoreError o.Ret) w' →
      Answers wk org tid onCall me lower db (f a) R') :
    Answers wk org tid onCall me lower db (store o >>= f) R' := by
  rintro w rfl
  exact smooth_read hread fun a w' hsame hexec hA => h a w w' rfl hexec hA w' hsame

theorem answers_await {o : Op} {f : o.Res → Job β} (ho : ∀ so, o ≠ .store so)
    (h : ∀ r (w w' : World (machine lower) Tag), Smooth wk org tid onCall me o w r w' →
      Answers wk org tid onCall me lower db (f r) R') :
    Answers wk org tid onCall me lower db (await o >>= f) R' := by
  rintro w rfl
  exact smooth_await ho fun r w' hsame hA => h r w w' hA w' hsame

theorem answers_try {o : StoreOp} {f : Except StoreError o.Ret → Job β} (hread : o.reads = true)
    (h : ∀ a (w w' : World (machine lower) Tag), w.store.db = db →
      db.exec lower w'.store.clock o = (.ok a, db) →
      Smooth wk org tid onCall me (.store o) w (.ok a : Except StoreError o.Ret) w' →
      Answers wk org tid onCall me lower db (f (.ok a)) R') :
    Answers wk org tid onCall me lower db ((store o).attempt >>= f) R' := by
  rintro w rfl
  refine wpOk_bind (smooth_attempt (smooth_reads hread fun a w' hsame hexec hA => ?_))
  exact h a w w' rfl hexec hA w' hsame

theorem resolveOnCall_answers (sid : Uuid) (at_ : Time) :
    Answers wk org tid onCall me lower db (resolveOnCall org sid at_) (· = onCall sid) := by
  refine answers_await (by intro so h; cases h) fun r w w' hA => ?_
  split
  · next users =>
    refine answers_pure (hA.cached sid users rfl ?_)
    obtain ⟨c, -, hc⟩ := hA.ran
    obtain ⟨hcall, -, -⟩ := world_call hc
    rw [Sys.call_clock hcall]
    exact congrArg Prod.fst (Option.some.inj hcall)
  · refine answers_read rfl fun users w w' hw hexec hA => ?_
    have husers : users = onCall sid := by
      cases hexec
      rw [← hw]
      exact hA.resolved sid at_ rfl
    split
    · exact answers_pure husers
    · exact answers_await (by intro so h; cases h) fun _ _ _ _ => answers_pure husers

theorem pageUser_answers (user : UserId) (out : List PageTarget) :
    Answers wk org tid onCall me lower db (pageUser org user out)
      fun ts => ∀ c, c ∈ channelsOf ts ↔
        c ∈ channelsOf out ∨ c ∈ db.settings.contacts org user := by
  refine answers_read rfl fun contacts w w' _ hexec _ => answers_pure fun c => ?_
  cases hexec
  exact mem_channelsOf_foldl

theorem pageUsers_answers : ∀ (users : List UserId) (out : List PageTarget),
    Answers wk org tid onCall me lower db (pageUsers org users out)
      fun ts => ∀ c, c ∈ channelsOf ts ↔
        c ∈ channelsOf out ∨ c ∈ users.flatMap (db.settings.contacts org)
  | [], out => answers_pure fun c => by simp
  | user :: rest, out => by
    refine answers_bind (pageUser_answers user out) fun out' hout => ?_
    intro w hw
    refine wpOk_mono (pageUsers_answers rest out' w hw) fun ts w' h => ⟨fun c => ?_, h.2⟩
    rw [h.1 c, hout c, List.flatMap_cons, List.mem_append, or_assoc]

theorem resolveTarget_answers (at_ : Time) (t : EscalationTarget) (out : List PageTarget) :
    Answers wk org tid onCall me lower db (resolveTarget org at_ t out)
      fun ts => ∀ c, c ∈ channelsOf ts ↔
        c ∈ channelsOf out ∨ c ∈ t.channels (db.settings.contacts org) onCall := by
  unfold resolveTarget
  split
  · next htype =>
    split
    · next cid heq =>
      refine answers_pure fun c => ?_
      simp [EscalationTarget.channels, htype, heq, mem_channelsOf_push]
    · next heq => exact answers_pure fun c => by simp [EscalationTarget.channels, htype, heq]
  · next htype =>
    split
    · next uid heq =>
      have hchannels : t.channels (db.settings.contacts org) onCall =
          db.settings.contacts org uid := by simp [EscalationTarget.channels, htype, heq]
      rw [hchannels]
      exact pageUser_answers uid out
    · next heq => exact answers_pure fun c => by simp [EscalationTarget.channels, htype, heq]
  · next htype =>
    split
    · next sid heq =>
      have hchannels : t.channels (db.settings.contacts org) onCall =
          (onCall sid).flatMap (db.settings.contacts org) := by
        simp [EscalationTarget.channels, htype, heq]
      rw [hchannels]
      refine answers_bind (resolveOnCall_answers sid at_) ?_
      rintro users rfl
      exact pageUsers_answers (onCall sid) out
    · next heq => exact answers_pure fun c => by simp [EscalationTarget.channels, htype, heq]

theorem resolveTargetList_answers (at_ : Time) : ∀ (targets : List EscalationTarget)
    (out : List PageTarget),
    Answers wk org tid onCall me lower db (resolveTargetList org at_ targets out)
      fun ts => ∀ c, c ∈ channelsOf ts ↔ c ∈ channelsOf out ∨
        c ∈ targets.flatMap fun t => t.channels (db.settings.contacts org) onCall
  | [], out => answers_pure fun c => by simp
  | t :: rest, out => by
    refine answers_bind (resolveTarget_answers at_ t out) fun out' hout => ?_
    intro w hw
    refine wpOk_mono (resolveTargetList_answers at_ rest out' w hw) fun ts w' h => ⟨?_, h.2⟩
    intro c
    rw [h.1 c, hout c, List.flatMap_cons, List.mem_append, or_assoc]

theorem resolveTargets_answers (policy : EscalationPolicy) (level : Int) (at_ : Time) :
    Answers wk org tid onCall me lower db (resolveTargets org policy level at_)
      fun ts => ∀ c, c ∈ channelsOf ts ↔
        c ∈ policy.rung (db.settings.contacts org) onCall level := by
  unfold resolveTargets EscalationPolicy.rung
  cases policy.steps.find? fun s => s.level == level with
  | none => exact answers_pure fun c => by simp [channelsOf]
  | some step =>
    intro w hw
    refine wpOk_mono (resolveTargetList_answers at_ step.targets [] w hw) fun ts w' h => ⟨?_, h.2⟩
    intro c
    rw [h.1 c]
    simp [channelsOf]

theorem flapState_answers {target : Target} (htid : target.id = tid) :
    Answers wk org tid onCall me lower db (wk.flapState org target) (· ≠ .damped) := by
  unfold Worker.flapState
  split
  · exact answers_pure (by intro h; cases h)
  · refine answers_await (by intro so h; cases h) fun at_ _ _ _ => ?_
    refine answers_try rfl fun opens w w' hw hexec hA => answers_pure ?_
    cases hexec
    rw [← hw, htid]
    exact hA.steady _ (by rw [htid])

theorem maintenanceHolds_answers (incident : OpsIncident) {target : Target}
    (htid : target.id = tid) :
    Answers wk org tid onCall me lower db (Worker.maintenanceHolds org incident target)
      (· = false) := by
  unfold Worker.maintenanceHolds
  split
  · refine answers_try rfl fun suppressed w w' hw hexec hA => answers_pure ?_
    cases hexec
    rw [← hw, htid]
    exact hA.unsuppressed (by rw [htid])
  · exact answers_pure rfl

theorem mem_dedupe {c : Uuid} : ∀ {auto ids : List Uuid},
    c ∈ auto.foldl (fun ids id => if ids.contains id then ids else ids ++ [id]) ids ↔
      c ∈ ids ∨ c ∈ auto
  | [], ids => by simp
  | a :: rest, ids => by
    rw [List.foldl_cons, mem_dedupe, List.mem_cons]
    split
    · next h =>
      have ha : a ∈ ids := by simpa using h
      constructor
      · exact fun h => h.imp_right .inr
      · rintro (h | rfl | h)
        · exact .inl h
        · exact .inl ha
        · exact .inr h
    · rw [List.mem_append, List.mem_singleton, or_assoc]

theorem pagingChannelIds_answers (target : Target) :
    Answers wk org tid onCall me lower db (pagingChannelIds org target)
      fun ids => ∀ c, c ∈ ids ↔
        c ∈ target.alerts.channelIds ++ db.autoBoundIds lower org target.tags := by
  refine answers_read rfl fun auto w w' _ hexec _ => answers_pure fun c => ?_
  cases hexec
  rw [mem_dedupe, List.mem_append]

end

/-! ## It can be run -/

/-- The call takes no lock. -/
def Op.TakesNone (o : Op) : Prop := ∀ sh, o ≠ .lock sh

theorem Op.takesNone_store (o : StoreOp) : (Op.store o).TakesNone := by
  intro sh h
  cases h

theorem ran_exists (o : Op) (w : World (machine lower) Tag) (ho : o.TakesNone) :
    ∃ c r w', w.call me o c = some (r, w') ∧ Ran me o w r w' ∧ o.Honest r := by
  have hcall : ∃ r s, Sys.call lower me o .calm w.store = some (r, s) := by
    cases o with
    | lock sh => exact absurd rfl (ho sh)
    | _ => exact ⟨_, _, rfl⟩
  obtain ⟨r, s, h⟩ := hcall
  have hc := World.call_of_some (M := machine lower) h
  exact ⟨_, r, _, hc, ⟨_, rfl, hc⟩, Sys.call_honest h⟩

/-- The logic of code that takes no lock. -/
def unlocked (org : OrgId) (k : Uuid) : RestLogic org k where
  toQuietLogic := quietFootprint org Op.TakesNone fun o ho sh h => by
    subst h
    cases ho with
    | own h => cases h
  rest := fun {o} _ => all_store (P := Op.TakesNone) (Op.takesNone_store o)

theorem unlocked_canPage (wk : Worker) (reason : NotificationReason) :
    (unlocked org k).CanPage wk reason := by
  have hstore : ∀ o, (unlocked org k).Runs (store o) := fun o =>
    all_weaken (all_store (Op.takesNone_store o)) fun _ _ => trivial
  intro notice level targets paged hid hreason
  refine pageChannels_runs wk ⟨fun _ _ _ => ?_, fun _ _ => hstore _, fun _ _ => hstore _⟩ level hid
    hreason (fun _ _ => hstore _) targets paged
  refine all_await (P := Op.TakesNone) ?_
  intro sh h
  cases h

theorem page_runs_alone (wk : Worker) (reason : NotificationReason)
    (hfree : w.store.locks (pageLock k) = none) :
    ∃ r w', Solo (Ran me) me (wk.page org k reason) w r w' := by
  have hpage : (unlocked org k).CanPage wk reason := unlocked_canPage wk reason
  obtain ⟨x, heq, hx⟩ := pageWith_locked wk (fun _ => hpage) .apply
  have hfirst : ∃ u s, Sys.call lower me (.lock (pageLock k)) .calm w.store = some (u, s) := by
    simp only [Sys.call, hfree]
    exact ⟨_, _, rfl⟩
  obtain ⟨u, s, hlock⟩ := hfirst
  have hc : w.call me (.lock (pageLock k)) Choice.calm = _ :=
    World.call_of_some (M := machine lower) hlock
  obtain ⟨r, w₂, hbody⟩ := Solo.exists_of_all (A := Ran me) ran_exists x hx _
  obtain ⟨c, u, w₃, hc', hran, -⟩ :=
    ran_exists (.unlock (pageLock k)) w₂ (by intro sh h; cases h)
  refine ⟨r, w₃, ?_⟩
  unfold Worker.page
  rw [heq]
  exact .call hc ⟨_, rfl, hc⟩ (hbody.bind (.call hc' hran (.ret r w₃)))

/-- A computable part of `Smooth`, for code that looks at no roster. -/
def smoothNow (wk : Worker) (org : OrgId) (tid : Uuid) : (o : Op) →
    World (machine lower) Tag → o.Res → World (machine lower) Tag → Bool
  | .store (.alertsSuppressed ..), w, _, w' => !w.store.db.alertsSuppressed w'.store.clock org tid
  | .store (.opensSince _ _ since), w, _, _ =>
    decide (flapState (w.store.db.opensSince org tid since) wk.cfg.flapMaxOpens ≠ .damped)
  | .store (.resolveNow ..), _, _, _ => false
  | .cachedRoster .., _, _, _ => false
  | _, _, _, _ => true

theorem smooth_of_smoothNow (o : Op) (w : World (machine lower) Tag) (r : o.Res)
    (w' : World (machine lower) Tag) (hc : w.call me o Choice.calm = some (r, w'))
    (h : smoothNow wk org tid o w r w' = true) : Smooth wk org tid onCall me o w r w' where
  ran := ⟨_, rfl, hc⟩
  unsuppressed := by
    rintro rfl
    simpa [smoothNow] using h
  steady := by
    rintro since rfl
    simpa [smoothNow] using h
  cached := by
    rintro sid users rfl
    cases h
  resolved := by
    rintro sid at_ rfl
    cases h

end

end Uptimepage
