import Uptimepage.Escalation.Sending

/-!
# Rows in tasks' hands

What holds of the rows that tasks take up, in every run: each is in the paging log, under
the incident the task pages (`Hands.rows`), and a task sends and marks only such rows
(`Hands.meets`).
-/

namespace Uptimepage

open Async

/-- The incident a task pages. -/
def Tag.subject : Tag → Option (OrgId × Uuid)
  | .signal sig => some (sig.org, sig.incidentId)
  | .item (.reconcile d) | .item (.release d) | .item (.escalate d) | .item (.renotify d) =>
    some (d.org, d.id)
  | .item (.retry p) => some (p.org, p.incidentId)
  | .item (.pollAck _) | .request _ => none

theorem Tag.record_of_call {t : Tag} {n : NewIncidentNotification}
    (h : t.Call (.store (.recordNotification n))) :
    t.subject = some (n.org, n.incidentId) ∧ n.sentAt = none := by
  have hpage : ∀ {org k R S}, PageCall org k R S (.store (.recordNotification n)) →
      n.org = org ∧ n.incidentId = k ∧ n.sentAt = none := by
    intro org k R S h
    cases h with
    | record horg hid _ hs => exact ⟨horg, hid, hs⟩
    | quiet h =>
      cases h with
      | read h => cases h
      | own h => cases h
  cases t with
  | signal sig =>
    obtain ⟨horg, hid, hs⟩ := hpage h
    exact ⟨by simp [Tag.subject, horg, hid], hs⟩
  | item it =>
    cases it with
    | pollAck a =>
      cases h with
      | quiet h =>
        cases h with
        | read h => cases h
        | own h => cases h
    | _ =>
      obtain ⟨horg, hid, hs⟩ := hpage h
      exact ⟨by simp [Tag.subject, horg, hid], hs⟩
  | request r => cases h

/-! ## Rows of the paging log -/

namespace Db

/-- The row is there, under the incident. -/
def HasRow (db : Db) (org : OrgId) (k id : Uuid) : Prop :=
  ∃ n ∈ db.notifications, n.id = id ∧ n.org = org ∧ n.incidentId = k

variable {lower : String → String} {now : Time} {db db' : Db} {org : OrgId} {k id : Uuid}

theorem HasRow.of_eq (h : db.HasRow org k id) (heq : db'.notifications = db.notifications) :
    db'.HasRow org k id := by
  obtain ⟨n, hn, hid⟩ := h
  exact ⟨n, heq ▸ hn, hid⟩

theorem HasRow.lt (hk : db.Keyed) (h : db.HasRow org k id) : id < db.nextId := by
  obtain ⟨n, hn, rfl, -⟩ := h
  exact hk.notifications_lt n hn

theorem HasRow.exec (h : db.HasRow org k id) (o : StoreOp) :
    (db.exec lower now o).2.HasRow org k id := by
  obtain ⟨n, hn, hid, horg, hinc⟩ := h
  rcases exec_notifications lower now o db with ⟨m, rfl, heq⟩ | ⟨f, heq, hstep⟩
  · exact ⟨n, heq ▸ List.mem_append_left _ hn, hid, horg, hinc⟩
  · obtain ⟨hid', horg', hinc', -⟩ := (hstep n).keeps
    exact ⟨f n, heq ▸ List.mem_map_of_mem hn, hid'.trans hid, horg'.trans horg, hinc'.trans hinc⟩

theorem hasRow_record (n : NewIncidentNotification) :
    (db.exec lower now (.recordNotification n)).2.HasRow n.org n.incidentId db.nextId :=
  ⟨db.recordedRow now n, List.mem_append_right _ List.mem_cons_self, rfl, rfl, rfl⟩

theorem mem_pending {limit : Nat} {maxAttempts : Int} {p : PendingNotification}
    (h : p ∈ db.pendingNotifications now limit maxAttempts) :
    ∃ n ∈ db.notifications, n.id = p.id ∧ n.org = p.org ∧ n.incidentId = p.incidentId ∧
      n.status ≠ .sent := by
  obtain ⟨n, hn, rfl⟩ := List.mem_map.mp h
  have hrow : n ∈ db.notifications.filter (pendingRow now maxAttempts) := by
    rcases List.mem_append.mp (List.mem_of_mem_take hn) with hn | hn
    · exact (List.mem_filter.mp hn).1
    · exact (List.mem_filter.mp (Table.mem_firstBy hn)).1
  obtain ⟨hmem, hpend⟩ := List.mem_filter.mp hrow
  refine ⟨n, hmem, rfl, rfl, rfl, fun hs => ?_⟩
  simp [pendingRow, hs] at hpend

end Db

/-! ## The invariant -/

/-- The rows a list of items is to retry. -/
def retries (items : List Item) : List PendingNotification :=
  items.filterMap fun
    | .retry p => some p
    | _ => none

theorem mem_retries {items : List Item} {p : PendingNotification} :
    p ∈ retries items ↔ .retry p ∈ items := by
  simp only [retries, List.mem_filterMap]
  constructor
  · rintro ⟨it, hit, heq⟩
    cases it with
    | retry q =>
      cases heq
      exact hit
    | _ => cases heq
  · exact fun h => ⟨_, h, rfl⟩

namespace Engine

variable {lower : String → String} {wk : Worker} {e e' : Engine lower} {l : Label}
  {i j : Nat} {org : OrgId} {id : Uuid}

/-- The rows the sweep has picked up and not started to retry. -/
def toRetry (e : Engine lower) : List PendingNotification :=
  match e.sweep with
  | some ⟨_, some todo, _⟩ => retries todo
  | _ => []

/-- Every task ends with nothing delivered in its hands. -/
def Sends (e : Engine lower) : Prop := e.Meets sendContract fun t i w => Clear t (own i w.log)

structure Hands (e : Engine lower) : Prop where
  sound : e.Sound
  sends : e.Sends
  tasks : ∀ x ∈ e.pool.world.log, x.task < e.pool.progs.length
  rows : ∀ i t org id, e.pool.world.tags[i]? = some t → Took t (own i e.pool.world.log) org id →
    ∃ k, t.subject = some (org, k) ∧ e.db.HasRow org k id
  touched : ∀ x ∈ e.pool.world.log, ∀ id,
    (Op.delivers id x.op x.res = true ∨ Op.marks id x.op = true) → id < e.db.nextId
  waiting : ∀ p ∈ e.toRetry, e.db.HasRow p.org p.incidentId p.id

theorem hands_boot {db : Db} (hdb : db.Keyed) (clock : Time) : (boot lower db clock).Hands where
  sound := sound_boot hdb clock
  sends := meets_boot db clock
  tasks := fun _ hx => absurd hx List.not_mem_nil
  rows := fun i t org id ht => by simp [boot] at ht
  touched := fun _ hx => absurd hx List.not_mem_nil
  waiting := fun _ hp => absurd hp List.not_mem_nil

theorem Hands.took_lt (he : e.Hands) {t : Tag} (ht : e.pool.world.tags[i]? = some t)
    (h : Took t (own i e.pool.world.log) org id) : id < e.db.nextId := by
  obtain ⟨k, -, hrow⟩ := he.rows i t org id ht h
  exact hrow.lt he.sound.keyed

theorem Hands.own_new (he : e.Hands) : own e.pool.progs.length e.pool.world.log = [] := by
  refine List.filter_eq_nil_iff.mpr fun x hx => ?_
  have := he.tasks x hx
  simp only [beq_iff_eq]
  omega

/-! ### A task's turn -/

theorem records_call {me : Nat} {o : Op} {c : Choice} {r : o.Res} {s s' : Sys}
    (hc : Sys.call lower me o c s = some (r, s')) (h : o.records org id r = true) :
    ∃ n, o = .store (.recordNotification n) ∧ n.status = .queued ∧ n.org = org ∧
      id = s.db.nextId ∧ s'.db = (s.db.exec lower (s.tick c) (.recordNotification n)).2 := by
  cases o with
  | store so =>
    cases so with
    | recordNotification n =>
      simp only [Op.records, Bool.and_eq_true, beq_iff_eq] at h
      obtain ⟨⟨hq, horg⟩, hans⟩ := h
      rcases Sys.call_store hc with ⟨-, rfl, -⟩ | ⟨-, rfl, rfl⟩
      · cases hans
      · exact ⟨n, rfl, hq, horg, (beq_iff_eq.mp hans).symm, rfl⟩
    | _ => cases h
  | _ => cases h

theorem Hands.assumed (he : e.Hands) {o : Op} {c : Choice} {r : o.Res} {t : Tag}
    {w' : World (machine lower) Tag} (hc : e.pool.world.call i o c = some (r, w')) :
    (sendContract t i).assume o e.pool.world r w' := by
  intro org id hrec x hx
  obtain ⟨n, -, -, -, rfl, -⟩ := records_call (world_call hc).1 hrec
  have hfresh := he.touched x (mem_own hx) e.db.nextId
  constructor
  · by_contra hd
    exact absurd (hfresh (.inl (by simpa using hd))) (lt_irrefl _)
  · by_contra hm
    exact absurd (hfresh (.inr (by simpa using hm))) (lt_irrefl _)

/-- Task `i` of tag `t` made the call `o`, answered `r`, and met its contract. -/
structure Turn (e e' : Engine lower) (i : Nat) (c : Choice) (t : Tag) (o : Op) (r : o.Res) :
    Prop where
  tag : e.pool.world.tags[i]? = some t
  next : e.Next i o
  call : Sys.call lower i o c e.sys = some (r, e'.sys)
  tags : e'.pool.world.tags = e.pool.world.tags
  log : e'.pool.world.log = ⟨i, o, r⟩ :: e.pool.world.log
  length : e'.pool.progs.length = e.pool.progs.length
  others : ∀ j, j ≠ i → e'.pool.progs[j]? = e.pool.progs[j]?
  guar : (sendContract t i).guar o e.pool.world r e'.pool.world
  toRetry : e'.toRetry = e.toRetry

theorem Hands.turn_of_sched {c : Choice} {P : Pool (machine lower) Tag} (he : e.Hands)
    (hP : e.pool.sched i c = some P) : ∃ t o r, Turn e ⟨P, e.sweep⟩ i c t o r := by
  obtain ⟨t, o, k, r, ht, hp, hc, hset, hmeet⟩ := Pool.sched_guar he.sends hP
  obtain ⟨hcall, htags, hlog⟩ := world_call hc
  refine ⟨t, o, r, ht, ⟨k, hp⟩, hcall, htags, hlog, by simp [hset], fun j hj => ?_,
    (hmeet (he.assumed hc)).1, rfl⟩
  change P.progs[j]? = _
  rw [hset, List.getElem?_set_ne hj.symm]

section
variable {c : Choice} {t : Tag} {o : Op} {r : o.Res} (h : Turn e e' i c t o r)
include h

theorem Turn.live : e.pool.live i = true := by
  obtain ⟨k, hk⟩ := h.next
  simp [Pool.live, hk, Prog.isDone]

theorem Turn.own_self : own i e'.pool.world.log = ⟨i, o, r⟩ :: own i e.pool.world.log := by
  rw [h.log, own_cons_self]

theorem Turn.own_other (hj : j ≠ i) : own j e'.pool.world.log = own j e.pool.world.log := by
  rw [h.log, own_cons_ne hj.symm]

theorem Turn.nextId_le : e.db.nextId ≤ e'.db.nextId := by
  rcases Sys.call_db h.call with heq | ⟨so, -, -, heq⟩
  · exact le_of_eq (congrArg Db.nextId heq).symm
  · exact (Db.exec_nextId lower _ so e.db).trans (le_of_eq (congrArg Db.nextId heq).symm)

theorem Turn.hasRow {k : Uuid} (hrow : e.db.HasRow org k id) : e'.db.HasRow org k id := by
  rcases Sys.call_db h.call with heq | ⟨so, -, -, heq⟩
  · exact hrow.of_eq (congrArg _ heq)
  · exact (hrow.exec so).of_eq (congrArg _ heq)

theorem Turn.records_fresh (hr : o.records org id r = true) : id = e.db.nextId := by
  obtain ⟨n, -, -, -, hid, -⟩ := records_call h.call hr
  exact hid

theorem Turn.holds_touched (ht : Op.delivers id o r = true ∨ o.marks id = true) :
    ∃ org, Holds t (own i e.pool.world.log) org id := by
  rcases ht with ht | ht
  · cases o with
    | notify channel notice id' attempt g =>
      simp only [Op.delivers, Bool.and_eq_true, beq_iff_eq] at ht
      obtain ⟨rfl, -⟩ := ht
      exact (h.guar.1 _ _ _ _ _ rfl).1
    | _ => cases ht
  · cases o with
    | store so =>
      cases so with
      | markNotification org id' oc =>
        obtain rfl : id' = id := by simpa [Op.marks] using ht
        exact ⟨org, (h.guar.2 org id' oc rfl).1⟩
      | _ => cases ht
    | _ => cases ht

theorem Turn.rows (he : e.Hands) {t' : Tag} (ht' : e'.pool.world.tags[j]? = some t')
    (htook : Took t' (own j e'.pool.world.log) org id) :
    ∃ k, t'.subject = some (org, k) ∧ e'.db.HasRow org k id := by
  have hold : Took t' (own j e.pool.world.log) org id →
      ∃ k, t'.subject = some (org, k) ∧ e'.db.HasRow org k id := by
    intro hold
    obtain ⟨k, hsub, hrow⟩ := he.rows j t' org id (h.tags ▸ ht') hold
    exact ⟨k, hsub, h.hasRow hrow⟩
  by_cases hji : j = i
  · subst hji
    rw [h.own_self] at htook
    obtain ⟨x, hx, hrec⟩ | hq := htook
    · rcases List.mem_cons.mp hx with rfl | hx
      · obtain ⟨n, rfl, -, rfl, rfl, hdb⟩ := records_call h.call hrec
        obtain ⟨k, hk⟩ := h.next
        have hcall := he.sound.within.next h.tag hk
        rw [h.tags, h.tag] at ht'
        obtain rfl := Option.some.inj ht'
        exact ⟨n.incidentId, (Tag.record_of_call hcall).1,
          (Db.hasRow_record n).of_eq (congrArg _ hdb)⟩
      · exact hold (.inl ⟨x, hx, hrec⟩)
    · exact hold (.inr hq)
  · rw [h.own_other hji] at htook
    exact hold htook

end

/-! ### Moves -/

theorem Hands.sends_step (he : e.Hands) (h : e.step wk l = some e') : e'.Sends := by
  refine contracts_step he.sends h (fun t htags => ?_) (fun i c t o k r _ _ _ hc => he.assumed hc) ?_
  · refine code_clear wk t ?_
    cases step_cases h with
    | task hP =>
      obtain ⟨o, k, r, -, -, -, hsame, -⟩ := step_task hP
      rw [hsame] at htags
      simpa using congrArg List.length htags
    | _ => exact he.own_new
  · intro j t ht hl
    refine .inl ?_
    cases step_cases h with
    | @task i c _ hP =>
      obtain ⟨o, k, r, -, -, -, -, hlog, -⟩ := step_task hP
      have hij : i ≠ j := fun hij => hl c (hij ▸ rfl)
      change own j _ = own j _
      rw [hlog, own_cons_ne hij]
    | _ => rfl

theorem Hands.of_still (he : e.Hands) (hsound : e'.Sound) (hsends : e'.Sends)
    (hprogs : e'.pool.progs = e.pool.progs) (htags : e'.pool.world.tags = e.pool.world.tags)
    (hlog : e'.pool.world.log = e.pool.world.log)
    (hrows : e'.db.notifications = e.db.notifications) (hnext : e.db.nextId ≤ e'.db.nextId)
    (htodo : ∀ p ∈ e'.toRetry, e.db.HasRow p.org p.incidentId p.id) : e'.Hands := by
  refine ⟨hsound, hsends, ?_, ?_, ?_, fun p hp => (htodo p hp).of_eq hrows⟩
  · rw [hlog, hprogs]
    exact he.tasks
  · intro i t org id ht htook
    rw [htags] at ht
    rw [hlog] at htook
    obtain ⟨k, hsub, hrow⟩ := he.rows i t org id ht htook
    exact ⟨k, hsub, hrow.of_eq hrows⟩
  · intro x hx id h
    rw [hlog] at hx
    exact lt_of_lt_of_le (he.touched x hx id h) hnext

theorem Hands.of_spawn {t : Tag} {p : Prog calls Unit} (he : e.Hands) (hsound : e'.Sound)
    (hsends : e'.Sends) (hprogs : e'.pool.progs = e.pool.progs ++ [p])
    (htags : e'.pool.world.tags = e.pool.world.tags ++ [t])
    (hlog : e'.pool.world.log = e.pool.world.log) (hdb : e'.db = e.db)
    (hnew : ∀ q, t = .item (.retry q) → q ∈ e.toRetry)
    (htodo : ∀ q ∈ e'.toRetry, q ∈ e.toRetry) : e'.Hands := by
  refine ⟨hsound, hsends, ?_, ?_, ?_, fun q hq => hdb ▸ he.waiting q (htodo q hq)⟩
  · intro x hx
    rw [hlog] at hx
    rw [hprogs, List.length_append]
    exact Nat.lt_add_right _ (he.tasks x hx)
  · intro i t' org id ht' htook
    rw [hlog] at htook
    rw [htags] at ht'
    rw [hdb]
    rcases getElem?_snoc_cases ht' with ht' | ⟨rfl, rfl⟩
    · exact he.rows i t' org id ht' htook
    · rw [← he.sends.length_eq, he.own_new] at htook
      obtain ⟨x, hx, -⟩ | ⟨q, rfl, rfl, rfl⟩ := htook
      · exact absurd hx List.not_mem_nil
      · exact ⟨q.incidentId, rfl, he.waiting q (hnew q rfl)⟩
  · intro x hx id h
    rw [hlog] at hx
    rw [hdb]
    exact he.touched x hx id h

theorem Hands.of_turn {c : Choice} {t : Tag} {o : Op} {r : o.Res} (he : e.Hands)
    (hsound : e'.Sound) (hsends : e'.Sends) (h : Turn e e' i c t o r) : e'.Hands where
  sound := hsound
  sends := hsends
  tasks := fun x hx => by
    rw [h.length]
    rcases List.mem_cons.mp (h.log ▸ hx) with rfl | hx
    · obtain ⟨k, hk⟩ := h.next
      exact (List.getElem?_eq_some_iff.mp hk).1
    · exact he.tasks x hx
  rows := fun _ _ _ _ ht htook => h.rows he ht htook
  touched := fun x hx id ht => by
    refine lt_of_lt_of_le ?_ h.nextId_le
    rcases List.mem_cons.mp (h.log ▸ hx) with rfl | hx
    · obtain ⟨org, hh⟩ := h.holds_touched ht
      exact he.took_lt h.tag hh.1
    · exact he.touched x hx id ht
  waiting := fun p hp => h.hasRow (he.waiting p (h.toRetry ▸ hp))

theorem retry_scan {c : Choice} {ph : Phase} {p : PendingNotification}
    (h : .retry p ∈ (wk.scan (e.sys.tick c) e.db ph).1) :
    ∃ n ∈ e.db.notifications, n.id = p.id ∧ n.org = p.org ∧ n.incidentId = p.incidentId ∧
      n.status ≠ .sent := by
  cases ph <;> simp [Worker.scan] at h
  exact Db.mem_pending h

theorem scan_rows (lower : String → String) (wk : Worker) (now : Time) (db : Db) (ph : Phase) :
    (wk.scan now db ph).2.notifications = db.notifications ∧
      db.nextId ≤ (wk.scan now db ph).2.nextId := by
  rcases wk.scan_db lower now db ph with heq | ⟨limit, lease, heq⟩
  · rw [heq]
    exact ⟨rfl, le_refl _⟩
  · rw [heq]
    exact ⟨rfl, le_refl _⟩

theorem hands_step (he : e.Hands) (h : e.step wk l = some e') : e'.Hands := by
  have hsound := sound_step he.sound h
  have hsends := he.sends_step h
  cases step_cases h with
  | task hP =>
    obtain ⟨t, o, r, hturn⟩ := he.turn_of_sched hP
    exact he.of_turn hsound hsends hturn
  | recv hs =>
    exact he.of_spawn hsound hsends rfl rfl rfl rfl (fun q hq => by (cases hq)) fun q hq => hq
  | request =>
    exact he.of_spawn hsound hsends rfl rfl rfl rfl (fun q hq => by (cases hq)) fun q hq => hq
  | tick hs =>
    exact he.of_still hsound hsends rfl rfl rfl rfl (le_refl _)
      fun p hp => absurd hp List.not_mem_nil
  | scanFailed hs hf =>
    exact he.of_still hsound hsends rfl rfl rfl rfl (le_refl _)
      fun p hp => absurd hp List.not_mem_nil
  | @scan c ph running hs hf =>
    obtain ⟨hrows, hnext⟩ := scan_rows lower wk (e.sys.tick c) e.db ph
    refine he.of_still hsound hsends rfl rfl rfl hrows hnext fun p hp => ?_
    obtain ⟨n, hn, hid, horg, hinc, -⟩ := retry_scan (mem_retries.1 hp)
    exact ⟨n, hn, hid, horg, hinc⟩
  | @start ph it rest running hs =>
    have htodo : e.toRetry = retries (it :: rest) := by simp [toRetry, hs]
    refine he.of_spawn hsound hsends rfl rfl rfl rfl (fun q hq => ?_) fun q hq => ?_
    · cases hq
      exact htodo ▸ mem_retries.2 List.mem_cons_self
    · exact htodo ▸ mem_retries.2 (List.mem_cons_of_mem _ (mem_retries.1 hq))
  | @advance ph todo running hs hl =>
    refine he.of_still hsound hsends rfl rfl rfl rfl (le_refl _) fun p hp => ?_
    cases hn : ph.next <;> simp [toRetry, hn] at hp

end Engine

end Uptimepage
