import Uptimepage.Escalation.Moves
import Uptimepage.Store.Commits

/-!
# Acknowledging or resolving halts escalation

An escalation works from a claim taken by the scan: between the claim and its last page
it looks at the incident once and never at its state.  `halt_honoured_of_clear` says what
that leaves; `halt_overrun` is a run in which an acknowledgement commits in between.
-/

namespace Uptimepage

open Async

/-! ## The history of one incident -/

/-- The call recorded an escalated page of the incident. -/
def StoreOp.pagesRung (org : OrgId) (k : Uuid) : (o : StoreOp) → Except StoreError o.Ret → Bool
  | .recordNotification n, r =>
    n.org == org && n.incidentId == k && n.channelId.isSome && n.reason == .escalated &&
      match (r : Except StoreError Uuid) with
      | .ok _ => true
      | .error _ => false
  | _, _ => false

/-- An acknowledge, resolve or close of the incident has committed, and no reopen since.
The log is newest first. -/
def halted (org : OrgId) (k : Uuid) : List (Entry calls) → Bool
  | [] => false
  | x :: older =>
    !Op.onStore (StoreOp.reopens org k) x.op x.res &&
      (Op.onStore (StoreOp.halts org k) x.op x.res || halted org k older)

/-- No escalated page was recorded while the incident was halted. -/
def haltHonoured (org : OrgId) (k : Uuid) : List (Entry calls) → Bool
  | [] => true
  | x :: older =>
    !(Op.onStore (StoreOp.pagesRung org k) x.op x.res && halted org k older) &&
      haltHonoured org k older

namespace Engine

variable {lower : String → String} {w : Worker} {e e' : Engine lower} {l : Label}
  {org : OrgId} {k : Uuid}

/-! ## Escalations in flight -/

/-- A call that would record an escalated page of the incident. -/
def RungCall (org : OrgId) (k : Uuid) (o : Op) : Prop :=
  ∃ n, o = .store (.recordNotification n) ∧ n.org = org ∧ n.incidentId = k ∧
    n.channelId.isSome = true ∧ n.reason = .escalated

/-- An escalation of the incident is claimed and not started, or is under way and may still
record a page. -/
def Escalating (e : Engine lower) (org : OrgId) (k : Uuid) : Prop :=
  (∃ s todo d, e.sweep = some s ∧ s.todo = some todo ∧ Item.escalate d ∈ todo ∧ d.org = org ∧
      d.id = k) ∨
    ∃ i, e.pool.MayAt Op.Honest (RungCall org k) i

/-- No acknowledgement or resolution of the incident commits while an escalation of it is
in flight. -/
def HaltsClear (org : OrgId) (k : Uuid) (e : Engine lower) (l : Label) : Prop :=
  ∀ i c o, l = .task i c → e.Next i (.store o) → c.fails = false →
    e.db.triggered org k = true →
    (e.db.exec lower (e.sys.tick c) o).2.triggered org k = false → ¬ e.Escalating org k

theorem rungCall_tag {t : Tag} {o : Op} (h : t.Call o) (hr : RungCall org k o) :
    ∃ d, t = .item (.escalate d) ∧ d.org = org ∧ d.id = k := by
  obtain ⟨n, rfl, horg, hid, hch, hreason⟩ := hr
  have hrec : ∀ {org' k'} {R S : NotificationReason → Prop},
      PageCall org' k' R S (.store (.recordNotification n)) →
      n.org = org' ∧ n.incidentId = k' ∧ R .escalated := by
    intro org' k' R S h
    cases h with
    | quiet h => cases h with
      | read h => cases h
      | own h => cases h
    | record horg hid hR _ => exact ⟨horg, hid, hreason ▸ hR hch⟩
  cases t with
  | signal sig =>
    have := (hrec h).2.2
    simp [NotificationReason.isLifecycle] at this
  | request r => cases h
  | item it =>
    cases it with
    | escalate d =>
      obtain ⟨h₁, h₂, -⟩ := hrec h
      exact ⟨d, rfl, h₁ ▸ horg, h₂ ▸ hid⟩
    | reconcile d => exact absurd (hrec h).2.2 (by simp)
    | release d => exact absurd (hrec h).2.2 (by simp [NotificationReason.isLifecycle])
    | renotify d => exact absurd (hrec h).2.2 (by simp)
    | retry p => exact absurd (hrec h).2.2 (by simp)
    | pollAck a =>
      cases h with
      | quiet h => cases h with
        | read h => cases h
        | own h => cases h

theorem not_may_rung {t : Tag} (ht : ∀ d, t = .item (.escalate d) → ¬ (d.org = org ∧ d.id = k)) :
    ¬ (w.code t).May Op.Honest (RungCall org k) :=
  (code_all w t).not_may fun o ho hr => by
    obtain ⟨d, heq, hd⟩ := rungCall_tag ho hr
    exact ht d heq hd

theorem not_escalating_boot (db : Db) (clock : Time) :
    ¬ (boot lower db clock).Escalating org k := by
  rintro (⟨s, todo, d, hs, -⟩ | ⟨i, p, hp, -⟩)
  · simp [boot] at hs
  · simp [boot] at hp

theorem not_escalating (he : e.Sound) (hsw : e.sweep = none)
    (htags : ∀ d, Tag.item (.escalate d) ∉ e.pool.world.tags) : ¬ e.Escalating org k := by
  rintro (⟨s, todo, d, hs, -⟩ | ⟨i, p, hp, hmay⟩)
  · simp [hsw] at hs
  · obtain ⟨t, ht⟩ := he.within.tag_of_prog hp
    refine (he.within.calls i t p ht hp).not_may (fun o ho hr => ?_) hmay
    obtain ⟨d, rfl, -⟩ := rungCall_tag ho hr
    exact htags d (List.mem_of_getElem? ht)

theorem escalating_step (h : e.step w l = some e') (hesc : e'.Escalating org k) :
    e.Escalating org k ∨ ∃ c running d, l = .scan c ∧ e.sweep = some ⟨.escalateDue, none, running⟩ ∧
      e'.db = (w.scan (e.sys.tick c) e.db .escalateDue).2 ∧
      Item.escalate d ∈ (w.scan (e.sys.tick c) e.db .escalateDue).1 ∧ d.org = org ∧ d.id = k := by
  have hspawn : ∀ {P : Pool (machine lower) Tag} {t : Tag} {i : Nat}, P.progs = e.pool.progs →
      (∀ d, t = .item (.escalate d) → d.org = org → d.id = k → e.Escalating org k) →
      (P.spawn t (w.code t)).MayAt Op.Honest (RungCall org k) i → e.Escalating org k := by
    intro P t i hP ht hmay
    rcases hmay.of_spawn with ⟨p, hp, hmay⟩ | ⟨-, hmay⟩
    · exact .inr ⟨i, p, hP ▸ hp, hmay⟩
    · by_contra hno
      exact not_may_rung (fun d hd hk => hno (ht d hd hk.1 hk.2)) hmay
  cases step_cases h with
  | task hP =>
    rcases hesc with hesc | ⟨i, hmay⟩
    · exact .inl (.inl hesc)
    · exact .inl (.inr ⟨i, hmay.of_sched (fun _ _ _ _ _ _ hc => Sys.call_honest hc) hP⟩)
  | recv hs =>
    rcases hesc with hesc | ⟨i, hmay⟩
    · exact .inl (.inl hesc)
    · exact .inl (hspawn rfl (fun d hd => by cases hd) hmay)
  | request =>
    rcases hesc with hesc | ⟨i, hmay⟩
    · exact .inl (.inl hesc)
    · exact .inl (hspawn rfl (fun d hd => by cases hd) hmay)
  | tick hs =>
    rcases hesc with ⟨s, todo, d, hs', htodo, -⟩ | hmay
    · cases hs'
      cases htodo
    · exact .inl (.inr hmay)
  | scanFailed hs hf =>
    rcases hesc with ⟨s, todo, d, hs', htodo, hd, -⟩ | hmay
    · cases hs'
      cases htodo
      cases hd
    · exact .inl (.inr hmay)
  | @scan c ph running hs hf =>
    rcases hesc with ⟨s, todo, d, hs', htodo, hd, horg, hid⟩ | hmay
    · cases hs'
      cases htodo
      cases ph with
      | escalateDue => exact .inr ⟨c, running, d, rfl, hs, rfl, hd, horg, hid⟩
      | _ => simp [Worker.scan] at hd
    · exact .inl (.inr hmay)
  | start hs =>
    rcases hesc with ⟨s, todo, d, hs', htodo, hd, horg, hid⟩ | ⟨i, hmay⟩
    · cases hs'
      cases htodo
      exact .inl (.inl ⟨_, _, d, hs, rfl, List.mem_cons_of_mem _ hd, horg, hid⟩)
    · refine .inl (hspawn rfl (fun d hd horg hid => ?_) hmay)
      cases hd
      exact .inl ⟨_, _, d, hs, rfl, List.mem_cons_self, horg, hid⟩
  | @advance ph todo running hs hl =>
    rcases hesc with ⟨s, todo', d, hs', htodo, -⟩ | hmay
    · obtain ⟨p, -, rfl⟩ := Option.map_eq_some_iff.mp hs'
      cases htodo
    · exact .inl (.inr hmay)

theorem claimed_triggered {now : Time} {db : Db} {d : DueIncident} (hdb : db.Keyed)
    (hd : Item.escalate d ∈ (w.scan now db .escalateDue).1) :
    (w.scan now db .escalateDue).2.triggered d.org d.id = true := by
  obtain ⟨d', hd', hitem⟩ := List.mem_map.mp hd
  obtain ⟨r, hr, rfl⟩ := List.mem_map.mp hd'
  cases hitem
  obtain ⟨hmem, hdue⟩ := List.mem_filter.mp (Table.mem_firstBy hr)
  simp only [Db.escalationDue, Bool.and_eq_true, beq_iff_eq] at hdue
  refine Eq.trans (Db.triggered_lease (fun s => s) now db r.org r.id now _ _) ?_
  simp [Db.triggered, hdb.incident_eq hmem, hdue.1]

/-! ## The invariant -/

structure HaltInv (org : OrgId) (k : Uuid) (e : Engine lower) : Prop where
  sound : e.Sound
  inFlight : e.Escalating org k → e.db.triggered org k = true
  settled : halted org k e.pool.world.log = true → e.db.Settled org k
  honoured : haltHonoured org k e.pool.world.log = true

theorem haltInv_boot {db : Db} (hdb : db.Keyed) (clock : Time) :
    (boot lower db clock).HaltInv org k where
  sound := sound_boot hdb clock
  inFlight := fun h => absurd h (not_escalating_boot db clock)
  settled := fun h => by cases h
  honoured := rfl

theorem inFlight_step (he : e.HaltInv org k) (hok : HaltsClear org k e l)
    (h : e.step w l = some e') (hesc : e'.Escalating org k) : e'.db.triggered org k = true := by
  rcases escalating_step h hesc with hesc | ⟨c, running, d, rfl, -, hdb, hd, rfl, rfl⟩
  · have ht := he.inFlight hesc
    cases step_db h with
    | same heq => rw [heq]; exact ht
    | lease heq => rw [heq, Db.triggered_lease]; exact ht
    | call hnext hf heq =>
      by_contra hno
      rw [heq, Bool.not_eq_true] at hno
      exact hok _ _ _ rfl hnext hf ht hno hesc
  · rw [hdb]
    exact claimed_triggered he.sound.keyed hd

theorem settled_step (he : e.HaltInv org k) (h : e.step w l = some e')
    (hh : halted org k e'.pool.world.log = true) : e'.db.Settled org k := by
  have hlease : ∀ {now at_ limit lease}, e.db.Settled org k →
      (e.db.exec lower now (.dueForEscalation at_ limit lease)).2.Settled org k :=
    fun hs => Db.settled_exec hs rfl
  cases step_cases h with
  | task hP =>
    obtain ⟨o, kont, r, -, hcall, -, -, hlog, -⟩ := step_task hP
    simp only [hlog, halted, Bool.and_eq_true, Bool.or_eq_true, Bool.not_eq_true'] at hh
    cases o with
    | store so =>
      rcases Sys.call_store hcall with ⟨-, rfl, hstore⟩ | ⟨-, rfl, hstore⟩
      · simp only [db, sys, hstore]
        refine he.settled (hh.2.resolve_left fun hhalt => ?_)
        cases so <;> simp [Op.onStore, StoreOp.halts, committed] at hhalt
      · simp only [db, sys, hstore]
        rcases hh.2 with hhalt | hold
        · exact Db.halts_settled hhalt
        · exact Db.settled_exec (he.settled hold) hh.1
    | _ =>
      have hold := hh.2.resolve_left (by simp [Op.onStore])
      rcases Sys.call_db hcall with heq | ⟨so, hso, -⟩
      · exact (he.settled hold).of_eq heq
      · cases hso
  | scan hs hf =>
    have hold := he.settled hh
    rcases w.scan_db lower (e.sys.tick _) e.db _ with heq | ⟨limit, lease, heq⟩
    · exact hold.of_eq heq
    · exact (hlease hold).of_eq heq
  | recv hs => exact he.settled hh
  | request => exact he.settled hh
  | tick hs => exact he.settled hh
  | scanFailed hs hf => exact he.settled hh
  | start hs => exact he.settled hh
  | advance hs hl => exact he.settled hh

theorem pagesRung_rungCall {o : Op} {r : o.Res}
    (h : Op.onStore (StoreOp.pagesRung org k) o r = true) : RungCall org k o := by
  cases o with
  | store so =>
    cases so with
    | recordNotification n =>
      simp only [Op.onStore, StoreOp.pagesRung, Bool.and_eq_true, beq_iff_eq] at h
      exact ⟨n, rfl, h.1.1.1.1, h.1.1.1.2, h.1.1.2, h.1.2⟩
    | _ => cases h
  | _ => cases h

theorem honoured_step (he : e.HaltInv org k) (h : e.step w l = some e') :
    haltHonoured org k e'.pool.world.log = true := by
  cases step_cases h with
  | task hP =>
    obtain ⟨o, kont, r, hp, -, -, -, hlog, -⟩ := step_task hP
    simp only [hlog, haltHonoured, he.honoured, Bool.and_true, Bool.not_eq_true']
    by_contra hbad
    simp only [Bool.not_eq_false, Bool.and_eq_true] at hbad
    have ht := he.inFlight (.inr ⟨_, _, hp, .of_call (pagesRung_rungCall hbad.1)⟩)
    rw [(he.settled hbad.2).not_triggered] at ht
    cases ht
  | recv hs => exact he.honoured
  | request => exact he.honoured
  | tick hs => exact he.honoured
  | scanFailed hs hf => exact he.honoured
  | scan hs hf => exact he.honoured
  | start hs => exact he.honoured
  | advance hs hl => exact he.honoured

theorem haltInv_step (he : e.HaltInv org k) (hok : HaltsClear org k e l)
    (h : e.step w l = some e') : e'.HaltInv org k where
  sound := sound_step he.sound h
  inFlight := inFlight_step he hok h
  settled := settled_step he h
  honoured := honoured_step he h

end Engine

open Engine

/-- **Acknowledging or resolving halts escalation**, in every run in which neither commits
while an escalation of the incident is in flight: no escalated page is recorded after it
until a reopen commits. -/
theorem halt_honoured_of_clear (lower : String → String) (w : Worker) (db : Db) (clock : Time)
    (hdb : db.Keyed) (org : OrgId) (k : Uuid) (e : Engine lower)
    (h : Run (Engine.step w) (HaltsClear org k) (boot lower db clock) e) :
    haltHonoured org k e.pool.world.log = true :=
  (h.invariant (haltInv_boot hdb clock) fun _ _ _ hi hok hstep => haltInv_step hi hok hstep).honoured

theorem Sample.armed_keyed : Sample.armed.Keyed :=
  ⟨by decide, by decide, by decide, by decide⟩

/-- The acknowledgement commits with no sweep in progress. -/
theorem halt_honoured_of_clear_acknowledged : ∃ e : Engine id,
    halted 1 10 e.pool.world.log = true ∧ haltHonoured 1 10 e.pool.world.log = true := by
  have h₁ : Run (Engine.step Sample.worker) (HaltsClear 1 10) (boot id Sample.armed 1) _ :=
    .snoc .refl (fun _ _ _ h => by cases h)
      (show Engine.step Sample.worker _ (.request (.acknowledge 1 10 (.user 3) none none)) = _
        from rfl)
  have h₂ : Run (Engine.step Sample.worker) (HaltsClear 1 10) (boot id Sample.armed 1) _ :=
    .snoc h₁ (fun i c o hl hnext => by
      cases hl
      obtain ⟨kont, hk⟩ := hnext
      cases hk) (show Engine.step Sample.worker _ (.task 0 .calm) = _ from rfl)
  have hsound := h₂.invariant (sound_boot Sample.armed_keyed 1) fun _ _ _ hi _ hs =>
    sound_step hi hs
  have hquiet : ¬ Escalating _ 1 10 := not_escalating hsound rfl fun d => by
    change _ ∉ [Tag.request _]
    simp
  have h₃ : Run (Engine.step Sample.worker) (HaltsClear 1 10) (boot id Sample.armed 1) _ :=
    .snoc h₂ (fun i c o hl _ _ _ _ => hquiet)
      (show Engine.step Sample.worker _ (.task 0 .calm) = _ from rfl)
  exact ⟨_, by decide +kernel, halt_honoured_of_clear id Sample.worker Sample.armed 1
    Sample.armed_keyed 1 10 _ h₃⟩

/-- Acknowledged once the escalation has read the incident and resolved its rung: the rung
is paged all the same. -/
theorem halt_overrun : ∃ e : Engine id,
    Run (Engine.step Sample.worker) (fun _ _ => True) (boot id Sample.armed 1) e ∧
      haltHonoured 1 10 e.pool.world.log = false := by
  have h : (steps (Engine.step Sample.worker) (boot id Sample.armed 1)
      (Sample.sweepTo 3 ++ ([.start] : List Label) ++ Sample.go 0 6 ++
        ([.request (.acknowledge 1 10 (.user 3) none none)] : List Label) ++ Sample.go 1 2 ++
        Sample.go 0 1)).any (fun e => !haltHonoured 1 10 e.pool.world.log) = true := by
    decide +kernel
  obtain ⟨e, hrun, hbad⟩ := exists_run_of_steps h
  exact ⟨e, hrun, by simpa using hbad⟩

end Uptimepage
