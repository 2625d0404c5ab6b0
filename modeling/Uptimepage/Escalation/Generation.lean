import Uptimepage.Escalation.Hands
import Uptimepage.Store.Commits

/-!
# An acknowledgement and its episode

A page's acknowledgement is pinned to an episode by counting the reopens up to the row's
`sent_at`, and the acknowledge transaction compares that count with the current one.  But
`sent_at` is stamped after the delivery, and a reopen is dated by the start of its
transaction.
-/

namespace Uptimepage

open Async Async.Fallible Job QuietLogic

/-! ## Reads, stamps and reopens -/

/-- The call writes a row's `sent_at`. -/
def Op.Stamps : Op → Prop
  | .store (.markNotification _ _ oc) => oc.sentAt.isSome = true
  | _ => False

/-- The call reads the incident. -/
def Op.gets (org : OrgId) (k : Uuid) : Op → Bool
  | .store (.get org' k') => org' == org && k' == k
  | _ => false

/-- The call reads the incident the task pages. -/
def Tag.Composes (t : Tag) (o : Op) : Prop :=
  ∃ org k, t.subject = some (org, k) ∧ o.gets org k = true

/-- The call wrote an outcome on the row. -/
def Op.marked (org : OrgId) (id : Uuid) : (o : Op) → o.Res → Bool
  | .store (.markNotification org' id' _), r =>
    org' == org && id' == id && match (r : Except StoreError Unit) with
      | .ok _ => true
      | .error _ => false
  | _, _ => false

/-- Reopens of the incident that committed in a history. -/
def reopensIn (org : OrgId) (k : Uuid) (log : List (Entry calls)) : Nat :=
  log.countP fun x => Op.onStore (StoreOp.reopens org k) x.op x.res

/-- The calls since task `i` last read the incident; the log is newest first. -/
def sinceRead (i : Nat) (org : OrgId) (k : Uuid) (log : List (Entry calls)) :
    List (Entry calls) :=
  log.takeWhile fun x => !(x.task == i && x.op.gets org k)

/-- The calls since the page that last marked the row was composed: since its task read the
incident, or all of them for a row marked before the run. -/
def sinceComposed (log : List (Entry calls)) (n : NotificationRow) : List (Entry calls) :=
  match log.find? fun x => Op.marked n.org n.id x.op x.res with
  | none => log
  | some x => sinceRead x.task n.org n.incidentId log

section
variable {org : OrgId} {k : Uuid} {log : List (Entry calls)} {x : Entry calls} {i : Nat}

theorem reopensIn_cons : reopensIn org k (x :: log) =
    reopensIn org k log + if Op.onStore (StoreOp.reopens org k) x.op x.res then 1 else 0 := by
  simp [reopensIn, List.countP_cons]

theorem reopensIn_append {later : List (Entry calls)} :
    reopensIn org k (later ++ log) = reopensIn org k later + reopensIn org k log := by
  simp [reopensIn]

theorem sinceRead_cons : sinceRead i org k (x :: log) =
    if x.task = i ∧ x.op.gets org k = true then [] else x :: sinceRead i org k log := by
  unfold sinceRead
  rw [List.takeWhile_cons]
  by_cases h : x.task = i ∧ x.op.gets org k = true
  · simp [h]
  · rw [if_neg h, if_pos]
    simpa [not_and_or, imp_iff_not_or] using h

theorem sinceComposed_marked {n : NotificationRow} (h : Op.marked n.org n.id x.op x.res = true) :
    sinceComposed (x :: log) n = sinceRead x.task n.org n.incidentId (x :: log) := by
  simp [sinceComposed, h]

theorem reopensIn_sinceComposed {n : NotificationRow}
    (h : Op.marked n.org n.id x.op x.res = false) :
    reopensIn org k (sinceComposed (x :: log) n) ≤ reopensIn org k (sinceComposed log n) +
      if Op.onStore (StoreOp.reopens org k) x.op x.res then 1 else 0 := by
  unfold sinceComposed
  rw [List.find?_cons, h]
  cases log.find? fun y => Op.marked n.org n.id y.op y.res with
  | none => exact le_of_eq reopensIn_cons
  | some y =>
    dsimp only
    rw [sinceRead_cons]
    split
    · exact Nat.zero_le _
    · exact le_of_eq reopensIn_cons

theorem sinceComposed_congr {n n' : NotificationRow} (hid : n'.id = n.id) (horg : n'.org = n.org)
    (hinc : n'.incidentId = n.incidentId) : sinceComposed log n' = sinceComposed log n := by
  simp only [sinceComposed, hid, horg, hinc]

end

/-! ## Pages are composed from a read -/

section
variable {t : Tag} {α β : Type}

/-- No stamp before the task has read its incident. -/
def ReadsFirst (t : Tag) (x : Job α) : Prop := Prog.Before Op.Honest t.Composes Op.Stamps x

theorem readsFirst_store {o : StoreOp} {f : o.Ret → Job β} (h : ¬ Op.Stamps (.store o))
    (hf : ∀ a, ReadsFirst t (f a)) : ReadsFirst t (store o >>= f) := by
  refine .inr ⟨h, fun r _ => ?_⟩
  cases r with
  | ok a => exact hf a
  | error e => trivial

theorem readsFirst_get {org : OrgId} {k : Uuid} {f : Option OpsIncident → Job β}
    (h : t.subject = some (org, k)) : ReadsFirst t (store (.get org k) >>= f) :=
  .inl ⟨org, k, h, by simp [Op.gets]⟩

theorem readsFirst_bind {x : Job α} {f : α → Job β} (hx : ReadsFirst t x)
    (hf : ∀ a, ReadsFirst t (f a)) : ReadsFirst t (x >>= f) := by
  refine Prog.Before.bind hx fun r => ?_
  cases r with
  | ok a => exact hf a
  | error e => trivial

theorem QuietCall.not_stamps {org : OrgId} {o : Op} (h : QuietCall org o) : ¬ o.Stamps := by
  cases h with
  | @read so h => cases so <;> first | exact id | cases h
  | own h => cases o <;> first | exact id | cases h
  | clear => exact id

theorem readsFirst_quiet (org : OrgId) {x : Job α}
    (hx : (quietFootprint org (fun o => ¬ o.Stamps) fun _ => QuietCall.not_stamps).Runs x) :
    ReadsFirst t x :=
  Prog.All.before (fun _ h => h) hx

theorem pageWith_readsFirst (wk : Worker) {org : OrgId} {k : Uuid} (h : t.subject = some (org, k))
    (reason : NotificationReason) (damper : Damper) :
    ReadsFirst t (wk.pageWith org k reason damper) :=
  .inr ⟨id, fun _ _ => Prog.Before.bind (readsFirst_get h) fun _ => .inr ⟨id, fun _ _ => trivial⟩⟩

theorem releaseOne_readsFirst (wk : Worker) (d : DueIncident)
    (h : t.subject = some (d.org, d.id)) : ReadsFirst t (wk.releaseOne d) := by
  refine readsFirst_store id fun before => ?_
  refine readsFirst_bind (readsFirst_quiet d.org (heldReason_runs d.id)) fun reason => ?_
  refine readsFirst_bind (pageWith_readsFirst wk h reason .skip) fun _ => ?_
  refine readsFirst_store id fun after => ?_
  split
  · trivial
  · exact readsFirst_store id fun _ => trivial

theorem escalateOne_readsFirst (wk : Worker) (d : DueIncident)
    (h : t.subject = some (d.org, d.id)) : ReadsFirst t (wk.escalateOne d) := by
  have hdisarm : ReadsFirst t (Worker.disarm d) := readsFirst_store id fun _ => trivial
  unfold Worker.escalateOne
  split
  · exact hdisarm
  · refine readsFirst_store id fun policy => ?_
    split
    · exact hdisarm
    · split
      · exact readsFirst_bind hdisarm fun _ => .inr ⟨id, fun _ _ => trivial⟩
      · exact readsFirst_get h

theorem renotifyOne_readsFirst (wk : Worker) (d : DueIncident)
    (h : t.subject = some (d.org, d.id)) : ReadsFirst t (wk.renotifyOne d) :=
  .inr ⟨id, fun _ _ => Prog.Before.bind (readsFirst_get h) fun _ => .inr ⟨id, fun _ _ => trivial⟩⟩

theorem retryOne_readsFirst (wk : Worker) (p : PendingNotification)
    (h : t.subject = some (p.org, p.incidentId)) : ReadsFirst t (wk.retryOne p) := by
  unfold Worker.retryOne Worker.rebuildFor
  split
  · exact .inl ⟨p.org, p.incidentId, h, by simp [Op.gets]⟩
  · have hbackoff : ReadsFirst t (wk.retryBackoff (p.attempt + 1)) :=
      readsFirst_quiet p.org (retryBackoff_runs wk _)
    refine readsFirst_bind (x := wk.retryBackoff (p.attempt + 1)) hbackoff fun at_ => ?_
    exact .inr ⟨by simp [Op.Stamps], fun _ _ => trivial⟩

theorem code_readsFirst (wk : Worker) (t : Tag) :
    (wk.code t).Before Op.Honest t.Composes Op.Stamps := by
  have hdetach : ∀ {x : Job Unit}, ReadsFirst t x →
      x.detach.Before Op.Honest t.Composes Op.Stamps :=
    fun hx => Prog.Before.bind hx fun _ => trivial
  cases t with
  | signal sig => exact hdetach (pageWith_readsFirst wk rfl sig.reason .apply)
  | item it =>
    cases it with
    | reconcile d => exact hdetach (pageWith_readsFirst wk rfl .opened .apply)
    | release d => exact hdetach (releaseOne_readsFirst wk d rfl)
    | escalate d => exact hdetach (escalateOne_readsFirst wk d rfl)
    | renotify d => exact hdetach (renotifyOne_readsFirst wk d rfl)
    | retry p => exact hdetach (retryOne_readsFirst wk p rfl)
    | pollAck a =>
      refine (code_all wk (.item (.pollAck a))).before fun o ho => ?_
      cases ho with
      | quiet h => exact h.not_stamps
      | acknowledge => exact id
      | acked => exact id
  | request r =>
    refine (code_all wk (.request r)).before fun o ho => ?_
    cases o with
    | store so => cases so <;> first | exact id | cases ho
    | _ => exact id

end

/-! ## Runs -/

theorem Tag.Call.countsEpisodes {t : Tag} {o : StoreOp} (h : t.Call (.store o)) :
    Db.countsEpisodes o := by
  cases o with
  | appendEvent org id kind actor message =>
    have hengine : kind.byEngine = true → kind ≠ .reopened := by
      rintro hk rfl
      cases hk
    have hquiet : ∀ {org' : OrgId},
        ¬ QuietCall org' (.store (.appendEvent org id kind actor message)) := by
      intro org' h
      cases h with
      | read h => cases h
      | own h => cases h
    have hpage : ∀ {org' k R S},
        PageCall org' k R S (.store (.appendEvent org id kind actor message)) →
          kind ≠ .reopened := by
      intro org' k R S h
      cases h with
      | quiet h => exact absurd h hquiet
      | event hk => exact hengine hk
    cases t with
    | signal sig => exact hpage h
    | item it =>
      cases it with
      | pollAck a =>
        cases h with
        | quiet h => exact absurd h hquiet
      | _ => exact hpage h
    | request r => cases h
  | _ => trivial

namespace Engine

variable {lower : String → String} {wk : Worker} {e e' : Engine lower} {l : Label}
  {i j : Nat} {org : OrgId} {k : Uuid}

/-- Reopens keep apart from pages: none commits while a task that has read the incident may
still stamp a page, and none is dated before a page's stamp. -/
structure ReopensApart (e : Engine lower) (l : Label) : Prop where
  composing : ∀ j c began org k actor note, l = .task j c →
    e.Next j (.store (.reopen began org k actor note)) → c.fails = false →
    committed (e.db.reopen began org k actor note).1 = true →
    ∀ x ∈ e.pool.world.log, x.op.gets org k = true → ¬ e.pool.MayAt Op.Honest Op.Stamps x.task
  stamped : ∀ j c began org k actor note, l = .task j c →
    e.Next j (.store (.reopen began org k actor note)) → c.fails = false →
    committed (e.db.reopen began org k actor note).1 = true →
    ∀ n ∈ e.db.notifications, n.org = org → n.incidentId = k → ∀ s, n.sentAt = some s → s < began

structure EpisodeInv (e : Engine lower) : Prop where
  hands : e.Hands
  ordered : e.pool.Ordered Op.Honest Tag.Composes Op.Stamps
  /-- No reopen since the read of a task that may still stamp. -/
  read : ∀ x ∈ e.pool.world.log, ∀ org k, x.op.gets org k = true →
    e.pool.MayAt Op.Honest Op.Stamps x.task →
    reopensIn org k (sinceRead x.task org k e.pool.world.log) = 0
  /-- A page's pin counts no reopen since the page was composed. -/
  pinned : ∀ n ∈ e.db.notifications, ∀ s, n.sentAt = some s →
    e.db.reopensBefore n.org n.incidentId s +
      reopensIn n.org n.incidentId (sinceComposed e.pool.world.log n) ≤
        e.db.reopenCount n.org n.incidentId

theorem episodeInv_boot {db : Db} (hdb : db.Keyed) (clock : Time) :
    (boot lower db clock).EpisodeInv where
  hands := hands_boot hdb clock
  ordered := fun i t p ht _ => by simp [boot] at ht
  read := fun _ hx => absurd hx List.not_mem_nil
  pinned := fun n _ s _ => db.reopensBefore_le n.org n.incidentId s

/-! ### A task's turn -/

section
variable {c : Choice} {t : Tag} {o : Op} {r : o.Res} (h : Turn e e' i c t o r)
include h

theorem Turn.reopens (hre : Op.onStore (StoreOp.reopens org k) o r = true) :
    ∃ began actor note, o = .store (.reopen began org k actor note) ∧ c.fails = false ∧
      committed (e.db.reopen began org k actor note).1 = true ∧
      e'.db = (e.db.reopen began org k actor note).2 := by
  cases o with
  | store so =>
    cases so with
    | reopen began org' k' actor note =>
      simp only [Op.onStore, StoreOp.reopens, Bool.and_eq_true, beq_iff_eq] at hre
      obtain ⟨⟨rfl, rfl⟩, hcommit⟩ := hre
      rcases Sys.call_store h.call with ⟨-, rfl, -⟩ | ⟨hf, rfl, hdb⟩
      · cases hcommit
      · exact ⟨began, actor, note, rfl, hf, hcommit, congrArg Sys.db hdb⟩
    | _ => cases hre
  | _ => cases hre

theorem Turn.not_reopens (he : e.Hands) (hre : Op.onStore (StoreOp.reopens org k) o r = false) :
    e'.db.reopenCount org k = e.db.reopenCount org k ∧
      ∀ at_, e'.db.reopensBefore org k at_ = e.db.reopensBefore org k at_ := by
  rcases Sys.call_db h.call with heq | ⟨so, rfl, hf, heq⟩
  · rw [Engine.db, heq]
    exact ⟨rfl, fun _ => rfl⟩
  · obtain ⟨p, hp⟩ := h.next
    have hcounts := (he.sound.within.next h.tag hp).countsEpisodes
    rcases Sys.call_store h.call with ⟨hf', -, -⟩ | ⟨-, hr, -⟩
    · rw [hf] at hf'
      cases hf'
    · rw [hr] at hre
      rw [Engine.db, heq]
      exact Db.exec_reopens hcounts hre

theorem Turn.reopens_apart (hok : ReopensApart e (.task i c))
    (hre : Op.onStore (StoreOp.reopens org k) o r = true) :
    (∀ x ∈ e.pool.world.log, x.op.gets org k = true →
      ¬ e.pool.MayAt Op.Honest Op.Stamps x.task) ∧
    e'.db.reopenCount org k = e.db.reopenCount org k + 1 ∧
    ∀ n ∈ e.db.notifications, n.org = org → n.incidentId = k → ∀ s, n.sentAt = some s →
      e'.db.reopensBefore org k s = e.db.reopensBefore org k s := by
  obtain ⟨began, actor, note, rfl, hf, hcommit, hdb⟩ := h.reopens hre
  obtain ⟨hcount, hbefore⟩ := Db.reopen_counts hcommit
  refine ⟨hok.composing i c began org k actor note rfl h.next hf hcommit, ?_, ?_⟩
  · rw [hdb, hcount]
  · intro n hn horg hinc s hs
    have hlt := hok.stamped i c began org k actor note rfl h.next hf hcommit n hn horg hinc s hs
    rw [hdb, hbefore, if_neg (not_le.mpr hlt), Nat.add_zero]

theorem Turn.read (he : e.EpisodeInv) (hok : ReopensApart e (.task i c))
    (hmay : ∀ j, e'.pool.MayAt Op.Honest Op.Stamps j → e.pool.MayAt Op.Honest Op.Stamps j)
    {x : Entry calls} (hx : x ∈ e'.pool.world.log) (hget : x.op.gets org k = true)
    (hx' : e'.pool.MayAt Op.Honest Op.Stamps x.task) :
    reopensIn org k (sinceRead x.task org k e'.pool.world.log) = 0 := by
  rw [h.log, sinceRead_cons]
  split
  · rfl
  · next hnew =>
    rcases List.mem_cons.mp (h.log ▸ hx) with rfl | hold
    · exact absurd ⟨rfl, hget⟩ hnew
    · rw [reopensIn_cons, he.read x hold org k hget (hmay _ hx'), if_neg]
      intro hre
      exact (h.reopens_apart hok hre).1 x hold hget (hmay _ hx')

theorem Turn.pinned_stamp (he : e.EpisodeInv) {oc : NotificationOutcome} {n : NotificationRow}
    (ho : o = .store (.markNotification n.org n.id oc)) (hn : n ∈ e.db.notifications)
    (hs : oc.sentAt.isSome = true) :
    reopensIn n.org n.incidentId (sinceRead i n.org n.incidentId e.pool.world.log) = 0 := by
  subst ho
  obtain ⟨p, hp⟩ := h.next
  obtain ⟨x, hx, hxi, org, k, hsub, hget⟩ := he.ordered.done h.tag hp hs fun hc => by
    obtain ⟨_, _, _, hget⟩ := hc
    cases hget
  -- The row is of the task's own incident.
  obtain ⟨hh, -⟩ := h.guar.2 n.org n.id oc rfl
  obtain ⟨k', hsub', m, hm, hid, -, hinc⟩ := he.hands.rows i t n.org n.id h.tag hh.1
  obtain rfl := List.inj_on_of_nodup_map he.hands.sound.keyed.notifications hm hn hid
  rw [hsub] at hsub'
  obtain ⟨rfl, rfl⟩ := Prod.mk.inj (Option.some.inj hsub')
  rw [hinc, ← hxi]
  have hmay : e.pool.MayAt Op.Honest Op.Stamps i := ⟨_, hp, Prog.May.of_call (S := calls) (P := Op.Stamps) hs⟩
  exact he.read x hx m.org k hget (hxi ▸ hmay)

theorem Turn.marked {id : Uuid} (hm : Op.marked org id o r = true) :
    ∃ oc, o = .store (.markNotification org id oc) ∧ c.fails = false := by
  cases o with
  | store so =>
    cases so with
    | markNotification org' id' oc =>
      simp only [Op.marked, Bool.and_eq_true, beq_iff_eq] at hm
      obtain ⟨⟨rfl, rfl⟩, hok⟩ := hm
      rcases Sys.call_store h.call with ⟨-, rfl, -⟩ | ⟨hf, -, -⟩
      · cases hok
      · exact ⟨oc, rfl, hf⟩
    | _ => cases hm
  | _ => cases hm

theorem Turn.row_of (he : e.Hands) {n : NotificationRow} (hn : n ∈ e'.db.notifications)
    (hs : n.sentAt ≠ none) :
    ∃ m ∈ e.db.notifications, m.id = n.id ∧ m.org = n.org ∧ m.incidentId = n.incidentId ∧
      (n.sentAt = m.sentAt ∨
        ∃ oc, o = .store (.markNotification m.org m.id oc) ∧ c.fails = false ∧
          n.sentAt = oc.sentAt) := by
  rcases Sys.call_db h.call with heq | ⟨so, rfl, hf, heq⟩
  · rw [Engine.db, heq] at hn
    exact ⟨n, hn, rfl, rfl, rfl, .inl rfl⟩
  · rw [Engine.db, heq] at hn
    rcases Db.exec_notifications lower (e.sys.tick c) so e.db with ⟨new, rfl, hrows⟩ | ⟨f, hrows, hstep⟩
    · rw [hrows] at hn
      rcases List.mem_append.mp hn with hn | hn
      · exact ⟨n, hn, rfl, rfl, rfl, .inl rfl⟩
      · obtain rfl : n = e.db.recordedRow _ new := by simpa using hn
        obtain ⟨p, hp⟩ := h.next
        exact absurd (Tag.record_of_call (he.sound.within.next h.tag hp)).2 hs
    · rw [hrows] at hn
      obtain ⟨m, hm, rfl⟩ := List.mem_map.mp hn
      obtain ⟨hid, horg, hinc, -⟩ := (hstep m).keeps
      refine ⟨m, hm, hid.symm, horg.symm, hinc.symm, ?_⟩
      rcases (hstep m).sentAt with heq' | ⟨oc, rfl, heq'⟩
      · exact .inl heq'
      · exact .inr ⟨oc, rfl, hf, heq'⟩

theorem Turn.pinned (he : e.EpisodeInv) (hok : ReopensApart e (.task i c)) {n : NotificationRow}
    (hn : n ∈ e'.db.notifications) {s : Time} (hs : n.sentAt = some s) :
    e'.db.reopensBefore n.org n.incidentId s +
      reopensIn n.org n.incidentId (sinceComposed e'.pool.world.log n) ≤
        e'.db.reopenCount n.org n.incidentId := by
  obtain ⟨m, hm, hid, horg, hinc, hsent⟩ := h.row_of he.hands hn (by simp [hs])
  rw [h.log]
  cases hmark : Op.marked n.org n.id o r with
  | true =>
    obtain ⟨oc, rfl, hf⟩ := h.marked hmark
    have hstamp : n.sentAt = oc.sentAt := by
      rcases Sys.call_store h.call with ⟨hf', -, -⟩ | ⟨-, -, hdb⟩
      · rw [hf] at hf'
        cases hf'
      · rw [Engine.db, hdb] at hn
        exact Db.sentAt_mark lower (e.sys.tick c) hn rfl rfl
    have hread := h.pinned_stamp he (n := m) (by rw [hid, horg]) hm (by simp [← hstamp, hs])
    have hzero : reopensIn n.org n.incidentId (sinceComposed
        (⟨i, .store (.markNotification n.org n.id oc), r⟩ :: e.pool.world.log) n) = 0 := by
      rw [sinceComposed_marked hmark, sinceRead_cons, if_neg (by simp [Op.gets]), reopensIn_cons]
      simpa [Op.onStore, StoreOp.reopens, horg, hinc] using hread
    rw [hzero, Nat.add_zero]
    exact Db.reopensBefore_le _ _ _ _
  | false =>
    have hsame : m.sentAt = some s := by
      rcases hsent with heq | ⟨oc, rfl, hf, -⟩
      · exact heq ▸ hs
      · rcases Sys.call_store h.call with ⟨hf', -, -⟩ | ⟨-, rfl, -⟩
        · rw [hf] at hf'
          cases hf'
        · simp [Op.marked, hid, horg, Db.exec] at hmark
    have hold := he.pinned m hm s hsame
    have hsince : reopensIn n.org n.incidentId (sinceComposed (⟨i, o, r⟩ :: e.pool.world.log) n) ≤
        reopensIn n.org n.incidentId (sinceComposed e.pool.world.log m) +
          if Op.onStore (StoreOp.reopens n.org n.incidentId) o r then 1 else 0 := by
      rw [sinceComposed_congr hid horg hinc]
      exact reopensIn_sinceComposed hmark
    rw [horg, hinc] at hold
    cases hre : Op.onStore (StoreOp.reopens n.org n.incidentId) o r with
    | true =>
      obtain ⟨-, hcount, hbefore⟩ := h.reopens_apart hok hre
      rw [hcount, hbefore m hm horg hinc s hsame]
      rw [hre] at hsince
      simp only [if_true] at hsince
      omega
    | false =>
      obtain ⟨hcount, hbefore⟩ := h.not_reopens he.hands hre
      rw [hcount, hbefore]
      rw [hre] at hsince
      simp only [Bool.false_eq_true, if_false] at hsince
      omega

end

/-! ### Moves -/

theorem EpisodeInv.of_still (he : e.EpisodeInv) (hhands : e'.Hands)
    (hordered : e'.pool.Ordered Op.Honest Tag.Composes Op.Stamps)
    (hmay : ∀ x ∈ e.pool.world.log, e'.pool.MayAt Op.Honest Op.Stamps x.task →
      e.pool.MayAt Op.Honest Op.Stamps x.task)
    (hlog : e'.pool.world.log = e.pool.world.log)
    (hrows : e'.db.notifications = e.db.notifications) (hevents : e'.db.events = e.db.events) :
    e'.EpisodeInv := by
  refine ⟨hhands, hordered, ?_, ?_⟩
  · intro x hx org k hget hx'
    rw [hlog] at hx ⊢
    exact he.read x hx org k hget (hmay x hx hx')
  · intro n hn s hs
    rw [hrows] at hn
    have hpin := he.pinned n hn s hs
    simpa only [Db.reopensBefore, Db.reopenCount, hevents, hlog] using hpin

theorem mayAt_of_spawn (he : e.Hands) {t : Tag} {p : Prog calls Unit} {x : Entry calls}
    (hx : x ∈ e.pool.world.log) {P : Pool (machine lower) Tag} (hP : P.progs = e.pool.progs)
    (hmay : (P.spawn t p).MayAt Op.Honest Op.Stamps x.task) :
    e.pool.MayAt Op.Honest Op.Stamps x.task := by
  rcases Pool.MayAt.of_spawn hmay with ⟨q, hq, hm⟩ | ⟨hnew, -⟩
  · exact ⟨q, hP ▸ hq, hm⟩
  · have := he.tasks x hx
    rw [hP] at hnew
    omega

theorem episodeInv_step (he : e.EpisodeInv) (hok : ReopensApart e l) (h : e.step wk l = some e') :
    e'.EpisodeInv := by
  have hhands := hands_step he.hands h
  have hlen := he.hands.sends.length_eq
  cases step_cases h with
  | task hP =>
    obtain ⟨t, o, r, hturn⟩ := he.hands.turn_of_sched hP
    refine ⟨hhands, he.ordered.sched (fun _ _ _ _ _ _ hc => Sys.call_honest hc) hP, ?_, ?_⟩
    · intro x hx org k hget hx'
      refine hturn.read he hok (fun j hj => ?_) hx hget hx'
      exact Pool.MayAt.of_sched (fun _ _ _ _ _ _ hc => Sys.call_honest hc) hP hj
    · exact fun n hn s hs => hturn.pinned he hok hn hs
  | recv hs =>
    have henv := he.ordered.env (w := (e.withStore _).pool.world) rfl rfl
    exact he.of_still hhands (henv.spawn hlen (code_readsFirst wk _))
      (fun x hx => mayAt_of_spawn he.hands hx rfl) rfl rfl rfl
  | request =>
    exact he.of_still hhands (he.ordered.spawn hlen (code_readsFirst wk _))
      (fun x hx => mayAt_of_spawn he.hands hx rfl) rfl rfl rfl
  | start hs =>
    exact he.of_still hhands (he.ordered.spawn hlen (code_readsFirst wk _))
      (fun x hx => mayAt_of_spawn he.hands hx rfl) rfl rfl rfl
  | scanFailed hs hf =>
    exact he.of_still hhands (he.ordered.env rfl rfl) (fun _ _ hm => hm) rfl rfl rfl
  | @scan c ph running hs hf =>
    have hevents : (wk.scan (e.sys.tick c) e.db ph).2.events = e.db.events := by
      rcases wk.scan_db lower _ e.db ph with heq | ⟨limit, lease, heq⟩
      · rw [heq]
      · rw [heq]
        rfl
    exact he.of_still hhands (he.ordered.env rfl rfl) (fun _ _ hm => hm) rfl
      (scan_rows lower wk _ e.db ph).1 hevents
  | tick hs => exact he.of_still hhands he.ordered (fun _ _ hm => hm) rfl rfl rfl
  | advance hs hl => exact he.of_still hhands he.ordered (fun _ _ hm => hm) rfl rfl rfl

/-- The episodes counted from `e` to `e'` are the reopens that committed in between. -/
def Counted (e e' : Engine lower) : Prop :=
  ∃ later, e'.pool.world.log = later ++ e.pool.world.log ∧
    ∀ org k, e'.db.reopenCount org k = e.db.reopenCount org k + reopensIn org k later

theorem counted_step (he : e.Hands) (h : e.step wk l = some e') : Counted e e' := by
  cases step_cases h with
  | task hP =>
    obtain ⟨t, o, r, hturn⟩ := he.turn_of_sched hP
    refine ⟨[⟨_, o, r⟩], hturn.log, fun org k => ?_⟩
    rw [reopensIn_cons]
    cases hre : Op.onStore (StoreOp.reopens org k) o r with
    | true =>
      obtain ⟨began, actor, note, -, -, hcommit, hdb⟩ := hturn.reopens hre
      rw [hdb, (Db.reopen_counts hcommit).1]
      simp [reopensIn]
    | false =>
      rw [(hturn.not_reopens he hre).1]
      simp [reopensIn]
  | @scan c ph running hs hf =>
    refine ⟨[], rfl, fun org k => ?_⟩
    change (wk.scan (e.sys.tick c) e.db ph).2.reopenCount org k = e.db.reopenCount org k
    rcases wk.scan_db lower _ e.db ph with heq | ⟨limit, lease, heq⟩
    · rw [heq]
    · rw [heq]
      rfl
  | _ => exact ⟨[], rfl, fun _ _ => rfl⟩

theorem counted_run (he : e.Hands) (h : Run (Engine.step wk) (fun _ _ => True) e e') :
    Counted e e' := by
  have hrun : e'.Hands ∧ Counted e e' := by
    refine h.invariant (I := fun u => u.Hands ∧ Counted e u) ⟨he, [], rfl, fun _ _ => rfl⟩ ?_
    rintro u l v ⟨hu, later, hlog, hcount⟩ - hstep
    obtain ⟨more, hlog', hcount'⟩ := counted_step hu hstep
    refine ⟨hands_step hu hstep, more ++ later, by rw [hlog', hlog, List.append_assoc], ?_⟩
    intro org k
    rw [hcount', hcount, reopensIn_append]
    omega
  exact hrun.2

theorem generation_step (h : e.step wk l = some e') {g : Nat}
    (hg : e.db.generation org k = some g) :
    ∃ g', e'.db.generation org k = some g' ∧ g ≤ g' := by
  obtain ⟨i, hi, rfl⟩ := Option.map_eq_some_iff.mp hg
  have hexec : ∀ (now : Time) (o : StoreOp), e'.db = (e.db.exec lower now o).2 →
      ∃ g', e'.db.generation org k = some g' ∧ e.db.reopenCount org k ≤ g' := by
    intro now o heq
    obtain ⟨i', hi', -⟩ := Db.exec_incident_some lower now o hi
    refine ⟨_, ?_, Db.reopenCount_mono lower now o e.db org k⟩
    rw [heq]
    simp [Db.generation, hi']
  cases step_db h with
  | same heq => exact ⟨_, heq ▸ hg, le_refl _⟩
  | call _ _ heq => exact hexec _ _ heq
  | lease heq => exact hexec _ _ heq

end Engine

/-- **An acknowledgement only reaches the episode its page belonged to.**  Along every run
the generation never decreases.  And for every state reached by steps that keep reopens
apart from pages, every page stamped in it, and every later state: an acknowledgement that
goes through with the page's pin finds no reopen committed since the page was composed. -/
theorem own_episode_of_apart (lower : String → String) (wk : Worker) (e₁ e₂ : Engine lower)
    (h : Run (Engine.step wk) (fun _ _ => True) e₁ e₂) :
    (∀ org k g, e₁.db.generation org k = some g →
      ∃ g', e₂.db.generation org k = some g' ∧ g ≤ g') ∧
    ∀ (db : Db) (clock : Time), db.Keyed →
      Run (Engine.step wk) Engine.ReopensApart (Engine.boot lower db clock) e₁ →
      ∀ n ∈ e₁.db.notifications, n.sentAt.isSome = true → ∀ now actor note,
        committed (e₂.db.acknowledge now n.org n.incidentId actor note
          (some (e₁.db.emergencyAck n).generation)).1 = true →
        ∃ later, e₂.pool.world.log = later ++ e₁.pool.world.log ∧
          reopensIn n.org n.incidentId (later ++ sinceComposed e₁.pool.world.log n) = 0 := by
  constructor
  · intro org k g hg
    refine h.invariant (I := fun e => ∃ g', e.db.generation org k = some g' ∧ g ≤ g')
      ⟨g, hg, le_refl _⟩ ?_
    rintro u l v ⟨g₁, hg₁, hle⟩ - hstep
    obtain ⟨g₂, hg₂, hle'⟩ := Engine.generation_step hstep hg₁
    exact ⟨g₂, hg₂, hle.trans hle'⟩
  · intro db clock hdb hrun n hn hs now actor note hack
    obtain ⟨s, hs⟩ := Option.isSome_iff_exists.mp hs
    have he : e₁.EpisodeInv := hrun.invariant (Engine.episodeInv_boot hdb clock)
      fun _ _ _ hi hok hstep => Engine.episodeInv_step hi hok hstep
    obtain ⟨later, hlog, hcount⟩ := Engine.counted_run he.hands h
    obtain ⟨-, -, -, -, hgen, -⟩ := Db.transition_committed (fun _ _ => ⟨rfl, rfl⟩) hack
    have hpin := he.pinned n hn s hs
    have hnow := hgen _ rfl
    rw [hcount] at hnow
    have hg : (e₁.db.emergencyAck n).generation = e₁.db.reopensBefore n.org n.incidentId s := by
      simp [Db.emergencyAck, hs]
    rw [hg] at hnow
    refine ⟨later, hlog, ?_⟩
    rw [reopensIn_append]
    omega

/-- A computable part of the guard: at a reopen no task that has read the incident is
running, and every stamp is earlier. -/
def Engine.reopensApartNow {lower : String → String} (e : Engine lower) : Label → Bool
  | .task i _ =>
    match e.nextOp i with
    | some (.store (.reopen began org k _ _)) =>
      e.pool.world.log.all (fun x => !x.op.gets org k || !e.pool.live x.task) &&
        e.db.notifications.all fun n => n.sentAt.all fun s => decide (s < began)
    | _ => true
  | _ => true

theorem Engine.apart_of_reopensApartNow {lower : String → String} (e : Engine lower) (l : Label)
    (h : e.reopensApartNow l = true) : Engine.ReopensApart e l where
  composing := by
    rintro j c began org k actor note rfl hnext - - x hx hget ⟨p, hp, hmay⟩
    simp only [Engine.reopensApartNow, hnext.nextOp_eq, Bool.and_eq_true, List.all_eq_true] at h
    have hdead := h.1 x hx
    cases p with
    | ret a => exact hmay trivial
    | call o k' => simp [hget, Pool.live, hp, Prog.isDone] at hdead
  stamped := by
    rintro j c began org k actor note rfl hnext - - n hn - - s hs
    simp only [Engine.reopensApartNow, hnext.nextOp_eq, Bool.and_eq_true, List.all_eq_true] at h
    have := h.2 n hn
    rw [hs] at this
    simpa using this

/-- The monitor bound to an emergency channel, nothing open. -/
def Sample.emergency : Db :=
  { Sample.flat with
    settings := { Sample.flat.settings with channels := [Sample.channel 100 .pushover] } }

theorem Sample.emergency_keyed : Sample.emergency.Keyed := by
  refine ⟨?_, ?_, ?_, ?_⟩ <;> simp [Sample.emergency, Sample.flat, Sample.db]

/-- A delivery that hands out a receipt. -/
def Choice.receipted : Choice := { Choice.calm with delivery := .ok (some "receipt") }

/-- An acknowledgement with the pin of row `n` goes through. -/
def Engine.pinHolds {lower : String → String} (e : Engine lower) (n : NotificationRow) : Bool :=
  n.sentAt.isSome && committed (e.db.acknowledge 0 n.org n.incidentId .link none
    (some (e.db.emergencyAck n).generation)).1

/-- An outage paged, resolved and reopened, and the page of its second episode. -/
theorem own_episode_of_apart_reopened : ∃ e : Engine id, ∃ n ∈ e.db.notifications,
    (e.db.emergencyAck n).generation = 1 ∧ e.pinHolds n = true ∧
      reopensIn n.org n.incidentId (sinceComposed e.pool.world.log n) = 0 := by
  have h : (steps (guarded (Engine.step Sample.worker) Engine.reopensApartNow)
      (Engine.boot id Sample.emergency 1)
      (Sample.opening ++ Sample.go 1 11 ++ ([.task 1 .receipted] : List Label) ++ Sample.go 1 5 ++
        ([.request (.resolve 1 1000 (.user 3) none)] : List Label) ++ Sample.go 2 3 ++
        ([.recv] : List Label) ++ Sample.go 3 16 ++
        ([.request (.reopen 1 1000 (.user 3) none)] : List Label) ++ Sample.go 4 3 ++
        ([.recv] : List Label) ++ Sample.go 5 16)).any
      (fun e => e.db.notifications.any fun n =>
        decide ((e.db.emergencyAck n).generation = 1) && e.pinHolds n) = true := by
    decide +kernel
  obtain ⟨e, hrun, hany⟩ := exists_run_of_steps h
  obtain ⟨n, hn, hpin⟩ := List.any_eq_true.mp hany
  simp only [Bool.and_eq_true, decide_eq_true_eq] at hpin
  refine ⟨e, n, hn, hpin.1, hpin.2, ?_⟩
  simp only [Engine.pinHolds, Bool.and_eq_true] at hpin
  obtain ⟨later, hlog, hnone⟩ := (own_episode_of_apart id Sample.worker e e .refl).2
    Sample.emergency 1 Sample.emergency_keyed (hrun.unguard Engine.apart_of_reopensApartNow)
    n hn hpin.2.1 0 .link none hpin.2.2
  rw [reopensIn_append] at hnone
  omega

/-- A delivery that outlasts its episode: the page composed before the resolve and the
reopen is stamped after them, and its acknowledgement takes the new episode. -/
theorem later_episode_acked : ∃ e : Engine id,
    Run (Engine.step Sample.worker) (fun _ _ => True) (Engine.boot id Sample.emergency 1) e ∧
      (e.db.notifications.any fun n => e.pinHolds n &&
        decide (0 < reopensIn n.org n.incidentId (sinceComposed e.pool.world.log n))) = true := by
  have h : (steps (Engine.step Sample.worker) (Engine.boot id Sample.emergency 1)
      (Sample.opening ++ Sample.go 1 11 ++
        ([.request (.resolve 1 1000 (.user 3) none)] : List Label) ++ Sample.go 2 3 ++
        ([.request (.reopen 1 1000 (.user 3) none)] : List Label) ++ Sample.go 3 3 ++
        ([.task 1 .receipted] : List Label) ++ Sample.go 1 3)).any
      (fun e => e.db.notifications.any fun n => e.pinHolds n &&
        decide (0 < reopensIn n.org n.incidentId (sinceComposed e.pool.world.log n))) = true := by
    decide +kernel
  exact exists_run_of_steps h

end Uptimepage
