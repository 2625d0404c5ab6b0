import Uptimepage.Escalation.Board
import Uptimepage.Escalation.OneSend

/-!
# The retry discipline

How often a page is attempted, and when.  `Engine.board` is the engine seen as a board of
pages to retry; `board_step` says that each of its moves is a move of the board, as long as
the retry scan picks up no row that a running task still has to mark, and the mark of an
attempt is written (`Spaced`).
-/

namespace Uptimepage

open Async

def NotificationRow.slip (n : NotificationRow) : Slip :=
  ⟨n.id, n.org, n.status, n.attempt, n.nextAttemptAt⟩

/-- The call sends row `id`. -/
def Op.sends (id : Uuid) : Op → Bool
  | .notify _ _ id' _ _ => id' == id
  | _ => false

/-- How often row `id` was sent. -/
def attempts (log : List (Entry calls)) (id : Uuid) : Nat := log.countP fun x => Op.sends id x.op

theorem attempts_cons {x : Entry calls} {log : List (Entry calls)} {id : Uuid} :
    attempts (x :: log) id = attempts log id + if Op.sends id x.op then 1 else 0 := by
  simp [attempts, List.countP_cons]

theorem Op.aside_sends {o : Op} (h : o.aside = true) (id : Uuid) : o.sends id = false := by
  cases o <;> first | rfl | cases h

namespace Db

variable {lower : String → String} {now : Time} {db : Db} {o : StoreOp}

theorem exec_slips_mark (lower : String → String) (now : Time) (org : OrgId) (id : Uuid) (oc : NotificationOutcome) :
    (db.exec lower now (.markNotification org id oc)).2.notifications.map NotificationRow.slip =
      (db.notifications.map NotificationRow.slip).map fun s =>
        if s.id = id ∧ s.org = org then s.marked oc else s := by
  show (Table.update _ (markRow oc) db.notifications).map _ = _
  simp only [Table.update, List.map_map]
  refine List.map_congr_left fun n _ => ?_
  by_cases hk : n.id = id ∧ n.org = org
  · simp [Function.comp, NotificationRow.slip, Slip.marked, markRow, hk]
  · have hno : ¬ ((n.id == id && n.org == org) = true) := by simpa using hk
    simp only [Function.comp, NotificationRow.slip, hno, hk, if_false]
    simp

theorem exec_slips_aside (h : Op.aside (.store o) = true) :
    (db.exec lower now o).2.notifications.map NotificationRow.slip =
      db.notifications.map NotificationRow.slip := by
  rcases exec_notifications lower now o db with ⟨n, rfl, -⟩ | ⟨f, heq, hstep⟩
  · cases h
  · rw [heq, List.map_map]
    refine List.map_congr_left fun n _ => ?_
    show (f n).slip = n.slip
    have hn := hstep n
    generalize f n = n' at hn
    cases hn with
    | marked => cases h
    | _ => rfl

end Db

namespace Engine

variable {lower : String → String} {wk : Worker} {e e' : Engine lower} {l : Label}

/-- What each running task owes. -/
def duty (wk : Worker) (e : Engine lower) : Nat → Option Duty :=
  e.pool.stage (duties wk.cfg.maxAttempts) Tag.duty

def board (wk : Worker) (e : Engine lower) : Board where
  slips := e.db.notifications.map NotificationRow.slip
  clock := e.sys.clock
  duty := e.duty wk
  todo := e.toRetry
  tried := attempts e.pool.world.log

def Keeps (wk : Worker) (e : Engine lower) : Prop :=
  e.pool.Follows (duties wk.cfg.maxAttempts) Op.Honest Tag.duty Duty.Over

/-- The retry scan picks up no row that a running task owes, and the mark of an attempt is
written. -/
structure Spaced (wk : Worker) (e : Engine lower) (l : Label) : Prop where
  scan : ∀ c ph running p i, l = .scan c → e.sweep = some ⟨ph, none, running⟩ →
    .retry p ∈ (wk.scan (e.sys.tick c) e.db ph).1 →
    ∀ org a t, e.duty wk i ≠ some (.owes org p.id a t)
  mark : ∀ i c org id oc, l = .task i c → e.Next i (.store (.markNotification org id oc)) →
    c.fails = false

theorem keeps_boot (db : Db) (clock : Time) : (boot lower db clock).Keeps wk :=
  ⟨rfl, fun _ hx => absurd hx List.not_mem_nil, fun i t p ht _ => by simp [boot] at ht⟩

theorem call_honest (me : Nat) (o : Op) (c : Choice) (s : Sys) (r : o.Res) (s' : Sys)
    (h : (machine lower).call me o c s = some (r, s')) : o.Honest r :=
  Sys.call_honest h

theorem keeps_step (he : e.Keeps wk) (h : e.step wk l = some e') : e'.Keeps wk := by
  cases step_cases h with
  | task hP => exact (Pool.Follows.of_sched call_honest he hP).1
  | recv hs => exact Pool.Follows.of_spawn (P := e.pool) he rfl rfl (code_follows wk _)
  | request => exact Pool.Follows.of_spawn he rfl rfl (code_follows wk _)
  | start hs => exact Pool.Follows.of_spawn he rfl rfl (code_follows wk _)
  | scanFailed hs hf => exact Pool.Follows.of_env he rfl rfl
  | scan hs hf => exact Pool.Follows.of_env he rfl rfl
  | tick hs => exact he
  | advance hs hl => exact he

/-! ## A task's call -/

section
variable {i : Nat} {c : Choice} {d : Duty} {o : Op} {r : o.Res}
  {P : Pool (machine lower) Tag}
  (hm : Pool.Moved (duties wk.cfg.maxAttempts) Tag.duty Duty.Over e.pool P i c d o r)
include hm

theorem moved_call : Sys.call lower i o c e.sys = some (r, P.world.store) := hm.call

theorem moved_clock : e.sys.clock ≤ P.world.store.clock := by
  rw [Sys.call_clock (moved_call hm)]
  exact le_of_lt (Sys.lt_tick e.sys c)

theorem moved_tried : attempts P.world.log =
    fun id => attempts e.pool.world.log id + if Op.sends id o then 1 else 0 := by
  funext id
  rw [hm.log, attempts_cons]

theorem board_aside (ho : Op.aside o = true) :
    Board.Move wk.cfg.maxAttempts (e.board wk) ((⟨P, e.sweep⟩ : Engine lower).board wk) := by
  have hstay : (duties wk.cfg.maxAttempts).next d o r = d := (Op.aside_duty ho).2 r
  have hself := hm.self
  rw [hstay] at hself
  refine .rest ?_ (moved_clock hm) ?_ (List.Sublist.refl _) (fun j d' hj => ?_)
    (fun j org id a hj => ?_)
  · show P.world.store.db.notifications.map _ = _
    rcases Sys.call_db (moved_call hm) with heq | ⟨so, rfl, -, heq⟩
    · rw [heq]
      rfl
    · rw [heq]
      exact Db.exec_slips_aside ho
  · show attempts P.world.log = _
    rw [moved_tried hm]
    funext id
    simp [Op.aside_sends ho id, board]
  · by_cases hji : j = i
    · subst hji
      rcases hself with hs | ⟨hs, -⟩
      · exact .inl (hm.stage.trans (hs.symm.trans hj))
      · rw [show P.stage (duties wk.cfg.maxAttempts) Tag.duty j = some d' from hj] at hs
        cases hs
    · exact .inl ((hm.others j hji).symm.trans hj)
  · by_cases hji : j = i
    · subst hji
      obtain rfl : d = .owes org id a true := Option.some.inj (hm.stage.symm.trans hj)
      rcases hself with hs | ⟨-, hover⟩
      · exact hs.trans hm.stage.symm
      · exact absurd rfl (hover org id a)
    · exact hm.others j hji

theorem duty_others (j : Nat) (hji : j ≠ i) :
    (⟨P, e.sweep⟩ : Engine lower).duty wk j = e.duty wk j :=
  hm.others j hji

end

section
variable {i : Nat} {c : Choice} {d : Duty} {P : Pool (machine lower) Tag}

theorem board_record (hkeyed : e.db.Keyed) {n : NewIncidentNotification}
    {r : Op.Res (.store (.recordNotification n))}
    (hm : Pool.Moved (duties wk.cfg.maxAttempts) Tag.duty Duty.Over e.pool P i c d
      (.store (.recordNotification n)) r) :
    Board.Move wk.cfg.maxAttempts (e.board wk) ((⟨P, e.sweep⟩ : Engine lower).board wk) := by
  have hallow := hm.allows
  cases d with
  | owes => exact absurd hallow id
  | free =>
    have htried : attempts P.world.log = attempts e.pool.world.log := by
      rw [moved_tried hm]
      rfl
    rcases Sys.call_store (moved_call hm) with ⟨-, rfl, hs⟩ | ⟨-, rfl, hs⟩
    · refine .rest (by show P.world.store.db.notifications.map _ = _; rw [hs]; rfl) (moved_clock hm)
        htried (List.Sublist.refl _) (fun j d' hj => ?_) (fun j org id a hj => ?_)
      · by_cases hji : j = i
        · subst hji
          rcases hm.self with hs | ⟨hs, -⟩
          · exact .inr (Option.some.inj (hj.symm.trans hs))
          · cases hj.symm.trans hs
        · exact .inl ((hm.others j hji).symm.trans hj)
      · by_cases hji : j = i
        · subst hji
          cases hm.stage.symm.trans hj
        · exact hm.others j hji
    · refine .record i (e.db.recordedRow (e.sys.tick c) n).slip hm.stage ?_ rfl hallow ?_
        (moved_clock hm) htried rfl (duty_others hm) (fun d' hd' => ?_)
      · intro s' hs'
        obtain ⟨m, hmem, rfl⟩ := List.mem_map.mp hs'
        exact Nat.ne_of_lt (hkeyed.notifications_lt m hmem)
      · show P.world.store.db.notifications.map _ = _
        rw [hs]
        exact List.map_append
      · rcases hm.self with hs' | ⟨hs', -⟩
        · obtain rfl := Option.some.inj (hd'.symm.trans hs')
          by_cases hq : n.status = .queued
          · exact .inr ⟨hq, if_pos hq⟩
          · exact .inl (if_neg hq)
        · cases hd'.symm.trans hs'

theorem board_send {channel : NotificationChannel} {notice : IncidentNotice} {id : Uuid} {a : Int}
    {g : Option Nat} {r : Op.Res (.notify channel notice id a g)}
    (hm : Pool.Moved (duties wk.cfg.maxAttempts) Tag.duty Duty.Over e.pool P i c d
      (.notify channel notice id a g) r) :
    Board.Move wk.cfg.maxAttempts (e.board wk) ((⟨P, e.sweep⟩ : Engine lower).board wk) := by
  have hallow := hm.allows
  cases d with
  | free => exact absurd hallow fun h => h
  | owes org id' a' t =>
    obtain ⟨rfl, rfl, rfl⟩ := hallow
    have htried := moved_tried hm
    refine .send i org id a hm.stage ?_ (moved_clock hm) ?_ (fun id' hne => ?_) rfl
      (duty_others hm) ?_
    · show P.world.store.db.notifications.map _ = _
      rcases Sys.call_db (moved_call hm) with heq | ⟨so, hso, -, -⟩
      · rw [heq]
        rfl
      · cases hso
    · show attempts P.world.log id = _
      rw [htried]
      simp [Op.sends, board]
    · show attempts P.world.log id' = _
      rw [htried]
      simp [Op.sends, board, Ne.symm hne]
    · rcases hm.self with hs | ⟨-, hover⟩
      · exact hs
      · exact absurd rfl (hover org id a)

theorem board_mark {org : OrgId} {id : Uuid} {oc : NotificationOutcome}
    {r : Op.Res (.store (.markNotification org id oc))} (hf : c.fails = false)
    (hm : Pool.Moved (duties wk.cfg.maxAttempts) Tag.duty Duty.Over e.pool P i c d
      (.store (.markNotification org id oc)) r) :
    Board.Move wk.cfg.maxAttempts (e.board wk) ((⟨P, e.sweep⟩ : Engine lower).board wk) := by
  have hallow := hm.allows
  cases d with
  | free => exact absurd hallow fun h => h
  | owes org' id' a t =>
    obtain ⟨rfl, rfl, ha, hq, hplan⟩ := hallow
    rcases Sys.call_store (moved_call hm) with ⟨hfails, -, -⟩ | ⟨-, rfl, hs⟩
    · rw [hf] at hfails
      cases hfails
    · refine .mark i org id a t oc hm.stage ha hq (fun hst hlt => hplan hst hlt) ?_
        (moved_clock hm) ?_ rfl (duty_others hm) (fun d' hd' => ?_)
      · show P.world.store.db.notifications.map _ = _
        rw [hs]
        exact Db.exec_slips_mark lower (e.sys.tick c) org id oc
      · show attempts P.world.log = _
        rw [moved_tried hm]
        rfl
      · rcases hm.self with hs' | ⟨hs', -⟩
        · exact Option.some.inj (hd'.symm.trans hs')
        · cases hd'.symm.trans hs'

theorem board_task (hkeyed : e.db.Keyed) {o : Op} {r : o.Res}
    (hmark : ∀ org id oc, o = .store (.markNotification org id oc) → c.fails = false)
    (hm : Pool.Moved (duties wk.cfg.maxAttempts) Tag.duty Duty.Over e.pool P i c d o r) :
    Board.Move wk.cfg.maxAttempts (e.board wk) ((⟨P, e.sweep⟩ : Engine lower).board wk) := by
  cases o with
  | notify channel notice id a g => exact board_send hm
  | store so =>
    cases so with
    | recordNotification n => exact board_record hkeyed hm
    | markNotification org id oc => exact board_mark (hmark org id oc rfl) hm
    | _ => exact board_aside hm rfl
  | _ => exact board_aside hm rfl

end

/-! ## Moves of the engine -/

theorem board_rest (hpool : e'.pool.progs = e.pool.progs)
    (htags : e'.pool.world.tags = e.pool.world.tags) (hlog : e'.pool.world.log = e.pool.world.log)
    (hrows : e'.db.notifications = e.db.notifications) (hclock : e.sys.clock ≤ e'.sys.clock)
    (htodo : e'.toRetry.Sublist e.toRetry) :
    Board.Move wk.cfg.maxAttempts (e.board wk) (e'.board wk) := by
  have hduty : ∀ i, e'.duty wk i = e.duty wk i := by
    intro i
    unfold duty Pool.stage Pool.live
    rw [hpool, htags, hlog]
  refine .rest (congrArg (List.map NotificationRow.slip) hrows) hclock (congrArg attempts hlog) htodo (fun i d hi => ?_)
    fun i _ _ _ _ => hduty i
  exact .inl ((hduty i).symm.trans hi)

theorem board_spawn (he : e.Keeps wk) {t : Tag} {p : Prog calls Unit} (ht : t.duty = .free)
    (hpool : e'.pool.progs = e.pool.progs ++ [p])
    (htags : e'.pool.world.tags = e.pool.world.tags ++ [t])
    (hlog : e'.pool.world.log = e.pool.world.log) (hstore : e'.db = e.db)
    (hclock : e'.sys.clock = e.sys.clock) (htodo : e'.toRetry.Sublist e.toRetry) :
    Board.Move wk.cfg.maxAttempts (e.board wk) (e'.board wk) := by
  have heq : e'.pool = ⟨e'.pool.world, e.pool.progs ++ [p]⟩ := by rw [← hpool]
  refine .rest (congrArg (·.notifications.map NotificationRow.slip) hstore) (le_of_eq hclock.symm)
    (congrArg attempts hlog) htodo (fun i d hi => ?_) (fun i org id a hi => ?_)
  · replace hi : e'.pool.stage (duties wk.cfg.maxAttempts) Tag.duty i = some d := hi
    rw [heq] at hi
    rcases Pool.stage_spawn he htags hlog hi with hi | ⟨-, rfl⟩
    · exact .inl hi
    · exact .inr ht
  · show e'.pool.stage (duties wk.cfg.maxAttempts) Tag.duty i = e.pool.stage _ Tag.duty i
    rw [heq]
    exact (Pool.stage_of_spawn htags hlog hi).trans hi.symm

theorem board_start (he : e.Keeps wk) {q : PendingNotification} {p : Prog calls Unit}
    (hpool : e'.pool.progs = e.pool.progs ++ [p])
    (htags : e'.pool.world.tags = e.pool.world.tags ++ [.item (.retry q)])
    (hlog : e'.pool.world.log = e.pool.world.log) (hstore : e'.db = e.db)
    (hclock : e'.sys.clock = e.sys.clock) (htodo : e.toRetry = q :: e'.toRetry) :
    Board.Move wk.cfg.maxAttempts (e.board wk) (e'.board wk) := by
  have heq : e'.pool = ⟨e'.pool.world, e.pool.progs ++ [p]⟩ := by rw [← hpool]
  have hnone : e.duty wk e.pool.progs.length = none := by
    simp [duty, Pool.stage, Pool.live]
  refine .start e.pool.progs.length q htodo hnone
    (congrArg (·.notifications.map NotificationRow.slip) hstore) (le_of_eq hclock.symm)
    (congrArg attempts hlog) (fun j hj => ?_) (fun d hd => ?_)
  · show e'.pool.stage (duties wk.cfg.maxAttempts) Tag.duty j = e.pool.stage _ Tag.duty j
    rw [heq]
    cases hold : e.pool.stage (duties wk.cfg.maxAttempts) Tag.duty j with
    | some d => exact Pool.stage_of_spawn htags hlog hold
    | none =>
      refine Option.eq_none_iff_forall_ne_some.mpr fun d hd => ?_
      rcases Pool.stage_spawn he htags hlog hd with hd | ⟨hjl, -⟩
      · rw [hold] at hd
        cases hd
      · exact hj hjl
  · replace hd : e'.pool.stage (duties wk.cfg.maxAttempts) Tag.duty e.pool.progs.length = some d :=
      hd
    rw [heq] at hd
    rcases Pool.stage_spawn he htags hlog hd with hd | ⟨-, rfl⟩
    · cases hnone.symm.trans hd
    · rfl

theorem mem_pending_slip {db : Db} {now : Time} {limit : Nat} {cap : Int}
    {p : PendingNotification} (h : p ∈ db.pendingNotifications now limit cap) :
    ∃ s ∈ db.notifications.map NotificationRow.slip, Board.Matches cap now p s := by
  obtain ⟨n, hn, rfl⟩ := List.mem_map.mp h
  have hrow : n ∈ db.notifications.filter (Db.pendingRow now cap) := by
    rcases List.mem_append.mp (List.mem_of_mem_take hn) with hn | hn
    · exact (List.mem_filter.mp hn).1
    · exact (List.mem_filter.mp (Table.mem_firstBy hn)).1
  obtain ⟨hmem, hpend⟩ := List.mem_filter.mp hrow
  refine ⟨n.slip, List.mem_map_of_mem hmem, rfl, rfl, rfl, ?_⟩
  simp only [Db.pendingRow, Bool.and_eq_true, Bool.or_eq_true, beq_iff_eq, decide_eq_true_eq,
    Option.all_eq_true] at hpend
  obtain ⟨⟨hst, hlt⟩, hnext⟩ := hpend
  exact ⟨hst, hlt, fun t ht => by simpa using hnext t ht⟩

theorem board_step (hkeyed : e.db.Keyed) (he : e.Keeps wk) (hok : Spaced wk e l)
    (h : e.step wk l = some e') : Board.Move wk.cfg.maxAttempts (e.board wk) (e'.board wk) := by
  cases step_cases h with
  | task hP =>
    obtain ⟨-, d, o, r, hm⟩ := Pool.Follows.of_sched call_honest he hP
    refine board_task hkeyed (fun org id oc ho => ?_) hm
    subst ho
    exact hok.mark _ _ org id oc rfl hm.next
  | recv hs => exact board_spawn he rfl rfl rfl rfl rfl rfl (List.Sublist.refl _)
  | request => exact board_spawn he rfl rfl rfl rfl rfl rfl (List.Sublist.refl _)
  | tick hs => exact board_rest rfl rfl rfl rfl (le_refl _) (List.nil_sublist _)
  | @scanFailed c ph running hs hf =>
    exact board_rest rfl rfl rfl rfl (le_of_lt (Sys.lt_tick e.sys c)) (List.nil_sublist _)
  | @scan c ph running hs hf =>
    refine .scan (congrArg (List.map NotificationRow.slip)
      (scan_rows lower wk (e.sys.tick c) e.db ph).1) (le_of_lt (Sys.lt_tick e.sys c)) rfl rfl
      (fun p hp => ?_) (retries_scan_nodup hkeyed _ ph) (fun p hp => ?_)
    · have hmem : .retry p ∈ (wk.scan (e.sys.tick c) e.db ph).1 := mem_retries.1 hp
      cases ph <;> simp [Worker.scan] at hmem
      exact mem_pending_slip hmem
    · exact fun i => hok.scan c ph running p i rfl hs (mem_retries.1 hp)
  | @start ph it rest running hs =>
    have htodo : e.toRetry = retries (it :: rest) := by simp [toRetry, hs]
    cases it with
    | retry q => exact board_start he rfl rfl rfl rfl rfl htodo
    | _ => exact board_spawn he rfl rfl rfl rfl rfl rfl (htodo ▸ List.Sublist.refl _)
  | @advance ph todo running hs hl =>
    refine board_rest rfl rfl rfl rfl (le_refl _) ?_
    cases ph.next <;> simp [toRetry]

/-! ## Runs -/

structure RetryInv (wk : Worker) (e : Engine lower) : Prop where
  sound : e.Sound
  keeps : e.Keeps wk
  discipline : (e.board wk).Discipline wk.cfg.maxAttempts

variable (hcap : 1 ≤ wk.cfg.maxAttempts)

theorem retryInv_boot {db : Db} (hdb : db.Keyed)
    (hplan : ∀ n ∈ db.notifications, n.slip.Planned wk.cfg.maxAttempts) (clock : Time) :
    RetryInv wk (boot lower db clock) where
  sound := sound_boot hdb clock
  keeps := keeps_boot db clock
  discipline := by
    have hnone : ∀ i, (boot lower db clock).duty wk i = none := by
      intro i
      simp [duty, Pool.stage, Pool.live, boot]
    refine ⟨?_, ?_, ?_, ?_, fun p hp => absurd hp List.not_mem_nil, List.nodup_nil,
      fun id hid => absurd rfl hid, fun _ _ => .inl rfl⟩
    · show ((db.notifications.map NotificationRow.slip).map _).Nodup
      rw [List.map_map]
      exact hdb.notifications
    · intro s hs
      obtain ⟨n, hn, rfl⟩ := List.mem_map.mp hs
      exact hplan n hn
    · intro i org id a t hi
      cases (hnone i).symm.trans hi
    · intro i j org org' id a a' t t' hi
      cases (hnone i).symm.trans hi

include hcap

theorem retryInv_step (he : RetryInv wk e) (hok : Spaced wk e l) (h : e.step wk l = some e') :
    RetryInv wk e' where
  sound := sound_step he.sound h
  keeps := keeps_step he.keeps h
  discipline := he.discipline.move (by omega) (board_step he.sound.keyed he.keeps hok h)

theorem retryInv_run {e₀ : Engine lower} (he : RetryInv wk e₀)
    (h : Run (step wk) (Spaced wk) e₀ e) : RetryInv wk e :=
  h.invariant he fun _ _ _ hi hok hstep => retryInv_step hcap hi hok hstep

theorem run_attempt_le (he : RetryInv wk e) (h : Run (step wk) (Spaced wk) e e') {s : Slip}
    (hs : s ∈ (e.board wk).slips) :
    ∃ s' ∈ (e'.board wk).slips, s'.id = s.id ∧ s.attempt ≤ s'.attempt := by
  induction h with
  | refl => exact ⟨s, hs, rfl, le_refl _⟩
  | snoc hrun hok hstep ih =>
    obtain ⟨s₁, hs₁, hid, hle⟩ := ih
    have hinv := retryInv_run hcap he hrun
    obtain ⟨s₂, hs₂, hid', hle'⟩ := Board.Move.attempt_le hinv.discipline
      (board_step hinv.sound.keyed hinv.keeps hok hstep) hs₁
    exact ⟨s₂, hs₂, hid'.trans hid, le_trans hle hle'⟩

theorem run_final (he : RetryInv wk e) (h : Run (step wk) (Spaced wk) e e') {s : Slip}
    (hs : s ∈ (e.board wk).slips) (hf : s.Final wk.cfg.maxAttempts) :
    s ∈ (e'.board wk).slips ∧ (e'.board wk).tried s.id = (e.board wk).tried s.id := by
  induction h with
  | refl => exact ⟨hs, rfl⟩
  | snoc hrun hok hstep ih =>
    obtain ⟨hs₁, htried⟩ := ih
    have hinv := retryInv_run hcap he hrun
    obtain ⟨hs₂, htried'⟩ := Board.Move.final hinv.discipline
      (board_step hinv.sound.keyed hinv.keeps hok hstep) hs₁ hf
    exact ⟨hs₂, htried'.trans htried⟩

omit hcap in
theorem RetryInv.due (he : RetryInv wk e) {i : Nat} {channel : NotificationChannel}
    {notice : IncidentNotice} {id : Uuid} {a : Int} {g : Option Nat}
    (hnext : e.Next i (.notify channel notice id a g)) {s : Slip}
    (hs : s ∈ (e.board wk).slips) (hid : s.id = id) (hf : s.status = .failed) :
    ∀ t ∈ s.nextAttemptAt, t ≤ e.sys.clock := by
  obtain ⟨k, hk⟩ := hnext
  have hi : i < e.pool.progs.length := (List.getElem?_eq_some_iff.mp hk).1
  obtain ⟨t, ht⟩ : ∃ t, e.pool.world.tags[i]? = some t :=
    ⟨_, List.getElem?_eq_getElem (he.keeps.length_eq ▸ hi)⟩
  have hlive : e.pool.live i = true := by simp [Pool.live, hk, Prog.isDone]
  have hallow := (he.keeps.follows i t _ ht hk).1
  have hduty : e.duty wk i = some ((duties wk.cfg.maxAttempts).after i t.duty e.pool.world.log) :=
    Pool.stage_eq_some.2 ⟨hlive, t, ht, rfl⟩
  generalize (duties wk.cfg.maxAttempts).after i t.duty e.pool.world.log = d at hallow hduty
  cases d with
  | free => exact absurd hallow fun h => h
  | owes org id' a' tr =>
    obtain ⟨rfl, -, -⟩ := hallow
    rcases (he.discipline.ready hduty hs hid).2 with ⟨hq, -, -⟩ | ⟨hpend, -⟩
    · rw [hf] at hq
      cases hq
    · exact hpend.2.2

end Engine

/-- **Retry discipline**, in every run whose retry scans pick up no row that a task still has
to mark and whose marks are written. -/
theorem retry_discipline (lower : String → String) (wk : Worker) (hcap : 1 ≤ wk.cfg.maxAttempts)
    (db : Db) (hdb : db.Keyed)
    (hplan : ∀ n ∈ db.notifications, n.slip.Planned wk.cfg.maxAttempts) (clock : Time)
    (e e' : Engine lower)
    (h : Run (Engine.step wk) (Engine.Spaced wk) (Engine.boot lower db clock) e)
    (h' : Run (Engine.step wk) (Engine.Spaced wk) e e') :
    (∀ id, attempts e'.pool.world.log id ≤ wk.cfg.maxAttempts) ∧
      ∀ n ∈ e.db.notifications,
        (∃ n' ∈ e'.db.notifications, n'.id = n.id ∧ n.attempt ≤ n'.attempt) ∧
        (n.slip.Final wk.cfg.maxAttempts → n.slip ∈ e'.db.notifications.map NotificationRow.slip ∧
          attempts e'.pool.world.log n.id = attempts e.pool.world.log n.id) ∧
        (n.status = .failed → n.attempt < wk.cfg.maxAttempts → ∃ t, n.nextAttemptAt = some t ∧
          ∀ i channel notice a g, e.Next i (.notify channel notice n.id a g) → t ≤ e.sys.clock) := by
  have he := Engine.retryInv_run hcap (Engine.retryInv_boot hdb hplan clock) h
  have he' := Engine.retryInv_run hcap he h'
  refine ⟨fun id => ?_, fun n hn => ?_⟩
  · have hle := he'.discipline.tried_le_cap (by omega) id
    have htried : (e'.board wk).tried id = attempts e'.pool.world.log id := rfl
    omega
  · have hs : n.slip ∈ (e.board wk).slips := List.mem_map_of_mem hn
    refine ⟨?_, Engine.run_final hcap he h' hs, fun hf hlt => ?_⟩
    · obtain ⟨s', hs', hid, hle⟩ := Engine.run_attempt_le hcap he h' hs
      obtain ⟨n', hn', rfl⟩ := List.mem_map.mp hs'
      exact ⟨n', hn', hid, hle⟩
    · obtain ⟨t, ht⟩ := Option.isSome_iff_exists.mp ((he.discipline.planned _ hs).2 hf hlt)
      exact ⟨t, ht, fun i channel notice a g hnext => he.due hnext hs rfl hf t ht⟩

theorem Engine.spaced_of_apartNow {lower : String → String} (wk : Worker) (e : Engine lower)
    (l : Label) (h : e.apartNow l = true) : Engine.Spaced wk e l where
  scan := by
    rintro c ph running p i rfl - - org a t hduty
    have hlive := (Pool.stage_eq_some.1 hduty).1
    simp only [Engine.apartNow, Bool.not_eq_true', List.any_eq_false, List.mem_range] at h
    exact h i (Pool.lt_of_live hlive) hlive
  mark := by
    rintro i c org id oc rfl -
    simpa [Engine.apartNow] using h

def Engine.row (e : Engine id) (k : Uuid) : Option NotificationRow :=
  e.db.notifications.find? fun n => n.id == k

/-- A page whose first delivery fails, and whose retry gets through. -/
theorem retry_discipline_retried : ∃ e e' : Engine id,
    (((e.row 1001).any fun n => n.status == .failed && n.attempt == 1 && n.nextAttemptAt.isSome) &&
      decide (attempts e'.pool.world.log 1001 = 2)) = true ∧
    (∀ id, attempts e'.pool.world.log id ≤ Sample.worker.cfg.maxAttempts) ∧
      ∀ n ∈ e.db.notifications,
        (∃ n' ∈ e'.db.notifications, n'.id = n.id ∧ n.attempt ≤ n'.attempt) ∧
        (n.slip.Final Sample.worker.cfg.maxAttempts →
          n.slip ∈ e'.db.notifications.map NotificationRow.slip ∧
          attempts e'.pool.world.log n.id = attempts e.pool.world.log n.id) ∧
        (n.status = .failed → n.attempt < Sample.worker.cfg.maxAttempts →
          ∃ t, n.nextAttemptAt = some t ∧
            ∀ i channel notice a g, e.Next i (.notify channel notice n.id a g) →
              t ≤ e.sys.clock) := by
  have h : (steps (guarded (Engine.step Sample.worker) Engine.apartNow)
      (Engine.boot id Sample.flat 1)
      (Sample.opening ++ Sample.go 1 11 ++ ([.task 1 .down] : List Label) ++
        Sample.go 1 4)).any (fun e =>
        (steps (guarded (Engine.step Sample.worker) Engine.apartNow) e
          (Sample.sweepTo 4 ++
            ([.advance, .scan { Choice.calm with elapsed := 100000000 }, .start] : List Label) ++
            Sample.go 2 7)).any fun e' =>
          ((e.row 1001).any fun n =>
            n.status == .failed && n.attempt == 1 && n.nextAttemptAt.isSome) &&
          decide (attempts e'.pool.world.log 1001 = 2)) = true := by
    decide +kernel
  obtain ⟨e, he, h⟩ := (Option.any_eq_true _ _).mp h
  obtain ⟨e', he', h⟩ := (Option.any_eq_true _ _).mp h
  have hok := fun u l => @Engine.spaced_of_apartNow id Sample.worker u l
  exact ⟨e, e', h, retry_discipline id Sample.worker (by decide) Sample.flat Sample.flat_keyed
    (fun n hn => absurd hn List.not_mem_nil) 1 e e' ((Run.of_steps he).unguard hok)
    ((Run.of_steps he').unguard hok)⟩

/-- The first delivery is still to be marked when a sweep retries its row: the row is marked
as attempt 2, and then as attempt 1. -/
theorem attempt_taken_back : ∃ e e' : Engine id,
    Run (Engine.step Sample.worker) (fun _ _ => True) (Engine.boot id Sample.flat 1) e ∧
      Run (Engine.step Sample.worker) (fun _ _ => True) e e' ∧
      (((e.row 1001).any fun n => n.status == .sent && n.attempt == 2) &&
        (e'.row 1001).any fun n => n.attempt == 1) = true := by
  have h : (steps (Engine.step Sample.worker) (Engine.boot id Sample.flat 1)
      (Sample.opening ++ Sample.go 1 12 ++ Sample.sweepTo 5 ++ ([.start] : List Label) ++
        Sample.go 2 7)).any
      (fun e => (steps (Engine.step Sample.worker) e (Sample.go 1 3)).any fun e' =>
        ((e.row 1001).any fun n => n.status == .sent && n.attempt == 2) &&
          (e'.row 1001).any fun n => n.attempt == 1) = true := by
    decide +kernel
  obtain ⟨e, he, h⟩ := (Option.any_eq_true _ _).mp h
  obtain ⟨e', he', h⟩ := (Option.any_eq_true _ _).mp h
  exact ⟨e, e', .of_steps he, .of_steps he', h⟩

end Uptimepage
