import Uptimepage.Escalation.Hands

/-!
# One page, one send

A round of paging records a row as `queued` and then sends it; the retry scan picks
`queued` rows up and takes no lock.  `Apart` says that the scan finds no row in a task's
hands and that the mark of a delivered page is written.  In every such run
(`one_send_of_apart`) each row is delivered at most once.  `sent_twice` is the slow first
delivery that a retry overtakes.
-/

namespace Uptimepage

open Async

/-! ## Rows -/

namespace Db

/-- The row's stored status is `sent`. -/
def sent (db : Db) (id : Uuid) : Bool :=
  db.notifications.any fun n => n.id == id && n.status == .sent

variable {lower : String → String} {now : Time} {db db' : Db} {org : OrgId} {k id : Uuid}
  {o : StoreOp}

theorem sent_iff : db.sent id = true ↔ ∃ n ∈ db.notifications, n.id = id ∧ n.status = .sent := by
  simp [sent]

theorem sent_of_eq (heq : db'.notifications = db.notifications) : db'.sent id = db.sent id := by
  simp only [sent, heq]

theorem sent_lt (hk : db.Keyed) (h : db.sent id = true) : id < db.nextId := by
  obtain ⟨n, hn, rfl, -⟩ := sent_iff.1 h
  exact hk.notifications_lt n hn

theorem sent_exec (h : (db.exec lower now o).2.sent id = true) :
    db.sent id = true ∨ (∃ org oc, o = .markNotification org id oc ∧ oc.status = .sent) ∨
      ∃ n, o = .recordNotification n ∧ n.status = .sent ∧ id = db.nextId := by
  obtain ⟨n, hn, rfl, hs⟩ := sent_iff.1 h
  rcases exec_notifications lower now o db with ⟨m, rfl, heq⟩ | ⟨f, heq, hstep⟩
  · rw [heq] at hn
    rcases List.mem_append.mp hn with hn | hn
    · exact .inl (sent_iff.2 ⟨n, hn, rfl, hs⟩)
    · obtain rfl : n = db.recordedRow now m := by simpa using hn
      exact .inr (.inr ⟨m, rfl, hs, rfl⟩)
  · rw [heq] at hn
    obtain ⟨m, hm, rfl⟩ := List.mem_map.mp hn
    have hid := (hstep m).keeps.1
    rw [hid]
    rcases (hstep m).status with heq' | ⟨oc, rfl, heq'⟩
    · exact .inl (sent_iff.2 ⟨m, hm, rfl, heq'.symm.trans hs⟩)
    · exact .inr (.inl ⟨_, oc, rfl, heq'.symm.trans hs⟩)

theorem sent_stays (h : db.sent id = true) (ho : ∀ org oc, o ≠ .markNotification org id oc) :
    (db.exec lower now o).2.sent id = true := by
  obtain ⟨n, hn, rfl, hs⟩ := sent_iff.1 h
  rcases exec_notifications lower now o db with ⟨m, rfl, heq⟩ | ⟨f, heq, hstep⟩
  · exact sent_iff.2 ⟨n, heq ▸ List.mem_append_left _ hn, rfl, hs⟩
  · refine sent_iff.2 ⟨f n, heq ▸ List.mem_map_of_mem hn, (hstep n).keeps.1, ?_⟩
    rcases (hstep n).status with heq' | ⟨oc, rfl, -⟩
    · exact heq'.trans hs
    · exact absurd rfl (ho _ oc)

theorem sent_mark (lower : String → String) (now : Time) {oc : NotificationOutcome}
    (h : db.HasRow org k id) (hs : oc.status = .sent) :
    (db.exec lower now (.markNotification org id oc)).2.sent id = true := by
  obtain ⟨n, hn, rfl, rfl, -⟩ := h
  refine sent_iff.2 ⟨markRow oc n, ?_, rfl, hs⟩
  exact List.mem_map.mpr ⟨n, hn, by simp⟩

theorem sent_eq_false (hk : db.Keyed) {n : NotificationRow} (hn : n ∈ db.notifications)
    (hs : n.status ≠ .sent) : db.sent n.id = false := by
  by_contra hsent
  obtain ⟨m, hm, hid, hs'⟩ := sent_iff.1 (by simpa using hsent)
  obtain rfl := List.inj_on_of_nodup_map hk.notifications hm hn hid
  exact hs hs'

theorem pending_nodup (hk : db.Keyed) (now : Time) (limit : Nat) (maxAttempts : Int) :
    ((db.pendingNotifications now limit maxAttempts).map (·.id)).Nodup := by
  have hrows : ((db.notifications.filter (pendingRow now maxAttempts)).map (·.id)).Nodup :=
    hk.notifications.sublist (List.filter_sublist.map _)
  -- The scan returns some of the pending rows, reordered.
  have hsplit : ∀ rows : List NotificationRow, (rows.map (·.id)).Nodup →
      ((((rows.filter fun n => n.nextAttemptAt.isNone) ++
        Table.firstBy (fun n => n.nextAttemptAt.getD 0) (scanCap limit)
          (rows.filter fun n => n.nextAttemptAt.isSome)).take (scanCap limit)).map (·.id)).Nodup := by
    intro rows hnd
    have hperm : ((rows.filter fun n => n.nextAttemptAt.isNone) ++
        (rows.filter fun n => n.nextAttemptAt.isSome).insertionSort
          fun a b => a.nextAttemptAt.getD 0 ≤ b.nextAttemptAt.getD 0).Perm rows := by
      refine ((List.perm_insertionSort _ _).append_left _).trans ?_
      have := List.filter_append_perm (fun n : NotificationRow => n.nextAttemptAt.isNone) rows
      simpa using this
    have hnd' := (hperm.map (·.id)).nodup_iff.mpr hnd
    refine hnd'.sublist (List.Sublist.map _ ?_)
    exact (List.take_sublist _ _).trans ((List.take_sublist _ _).append_left _)
  have hmap : ∀ l : List NotificationRow,
      (l.map NotificationRow.pending).map (·.id) = l.map (·.id) := by
    intro l
    simp [NotificationRow.pending, Function.comp_def]
  unfold pendingNotifications
  rw [hmap]
  exact hsplit _ hrows

end Db

/-! ## Rows in hand -/

namespace Engine

variable {lower : String → String} {wk : Worker} {e e' : Engine lower} {l : Label}
  {i j : Nat} {org org' : OrgId} {id : Uuid}

/-- Task `i` is running and has the row in its hands. -/
def InHand (e : Engine lower) (i : Nat) (org : OrgId) (id : Uuid) : Prop :=
  e.pool.live i = true ∧
    ∃ t, e.pool.world.tags[i]? = some t ∧ Holds t (own i e.pool.world.log) org id

/-- The retry scan picks up no row in a task's hands, and the mark of a delivered page is
written. -/
structure Apart (wk : Worker) (e : Engine lower) (l : Label) : Prop where
  scan : ∀ c ph running p i, l = .scan c → e.sweep = some ⟨ph, none, running⟩ →
    .retry p ∈ (wk.scan (e.sys.tick c) e.db ph).1 → ∀ org, ¬ e.InHand i org p.id
  mark : ∀ i c org id oc, l = .task i c → e.Next i (.store (.markNotification org id oc)) →
    oc.status = .sent → c.fails = false

structure SendInv (e : Engine lower) : Prop where
  hands : e.Hands
  alone : ∀ i j org org' id, e.InHand i org id → e.InHand j org' id → i = j
  idle : ∀ id, e.db.sent id = true → ∀ i org, ¬ e.InHand i org id
  toRetry : ∀ p ∈ e.toRetry, e.db.sent p.id = false ∧ ∀ i org, ¬ e.InHand i org p.id
  distinct : (e.toRetry.map (·.id)).Nodup
  done : ∀ id, deliveries e.pool.world.log id ≠ 0 → e.db.sent id = true ∨
    ∃ i org, e.InHand i org id ∧ deliveries (own i e.pool.world.log) id ≠ 0
  once : ∀ id, deliveries e.pool.world.log id ≤ 1

theorem sendInv_boot {db : Db} (hdb : db.Keyed) (clock : Time) : (boot lower db clock).SendInv where
  hands := hands_boot hdb clock
  alone := fun i j org org' id hi => by simp [InHand, boot] at hi
  idle := fun id _ i org hi => by simp [InHand, boot] at hi
  toRetry := fun p hp => absurd hp List.not_mem_nil
  distinct := List.nodup_nil
  done := fun id hd => absurd rfl hd
  once := fun id => Nat.zero_le _

theorem SendInv.inHand_lt (he : e.SendInv) (hi : e.InHand i org id) : id < e.db.nextId := by
  obtain ⟨-, t, ht, hh⟩ := hi
  exact he.hands.took_lt ht hh.1

/-! ### Moves that leave the tasks alone -/

theorem SendInv.of_still (he : e.SendInv) (hhands : e'.Hands)
    (hprogs : e'.pool.progs = e.pool.progs) (htags : e'.pool.world.tags = e.pool.world.tags)
    (hlog : e'.pool.world.log = e.pool.world.log)
    (hrows : e'.db.notifications = e.db.notifications)
    (htodo : ∀ p ∈ e'.toRetry, e.db.sent p.id = false ∧ ∀ i org, ¬ e.InHand i org p.id)
    (hdistinct : (e'.toRetry.map (·.id)).Nodup) : e'.SendInv := by
  have hhand : ∀ i org id, e'.InHand i org id ↔ e.InHand i org id := by
    intro i org id
    simp only [InHand, Pool.live, hprogs, htags, hlog]
  refine ⟨hhands, ?_, ?_, ?_, hdistinct, ?_, ?_⟩
  · intro i j org org' id hi hj
    exact he.alone i j org org' id ((hhand i org id).mp hi) ((hhand j org' id).mp hj)
  · intro id hs i org hi
    rw [Db.sent_of_eq hrows] at hs
    exact he.idle id hs i org ((hhand i org id).mp hi)
  · intro p hp
    obtain ⟨hs, hno⟩ := htodo p hp
    refine ⟨(Db.sent_of_eq hrows).trans hs, fun i org hi => ?_⟩
    exact hno i org ((hhand i org p.id).mp hi)
  · intro id hd
    rw [hlog] at hd ⊢
    rw [Db.sent_of_eq hrows]
    rcases he.done id hd with hs | hin
    · exact .inl hs
    · obtain ⟨i, org, hi, hown⟩ := hin
      exact .inr ⟨i, org, (hhand i org id).mpr hi, hown⟩
  · rw [hlog]
    exact he.once

/-! ### New tasks -/

section
variable {t : Tag} {p : Prog calls Unit}

theorem inHand_spawn (he : e.Hands) (hprogs : e'.pool.progs = e.pool.progs ++ [p])
    (htags : e'.pool.world.tags = e.pool.world.tags ++ [t])
    (hlog : e'.pool.world.log = e.pool.world.log) (h : e'.InHand i org id) :
    e.InHand i org id ∨
      (i = e.pool.progs.length ∧ ∃ q, t = .item (.retry q) ∧ q.org = org ∧ q.id = id) := by
  obtain ⟨hlive, t', ht', hh⟩ := h
  rw [hlog] at hh
  rw [htags] at ht'
  rcases getElem?_snoc_cases ht' with ht' | ⟨rfl, rfl⟩
  · refine .inl ⟨?_, t', ht', hh⟩
    have hi : i < e.pool.progs.length := by
      rw [he.sends.length_eq]
      exact (List.getElem?_eq_some_iff.mp ht').1
    simpa only [Pool.live, hprogs, List.getElem?_append_left hi] using hlive
  · rw [← he.sends.length_eq, he.own_new] at hh
    obtain ⟨⟨x, hx, -⟩ | hq, -⟩ := hh
    · exact absurd hx List.not_mem_nil
    · exact .inr ⟨he.sends.length_eq.symm, hq⟩

theorem inHand_of_spawn (hprogs : e'.pool.progs = e.pool.progs ++ [p])
    (htags : e'.pool.world.tags = e.pool.world.tags ++ [t])
    (hlog : e'.pool.world.log = e.pool.world.log) (h : e.InHand i org id) :
    e'.InHand i org id := by
  obtain ⟨hlive, t', ht', hh⟩ := h
  refine ⟨?_, t', ?_, hlog ▸ hh⟩
  · have hi : i < e.pool.progs.length := by
      by_contra hi
      simp [Pool.live, List.getElem?_eq_none (Nat.le_of_not_lt hi)] at hlive
    simpa only [Pool.live, hprogs, List.getElem?_append_left hi] using hlive
  · rw [htags, List.getElem?_append_left (List.getElem?_eq_some_iff.mp ht').1]
    exact ht'

theorem SendInv.of_spawn (he : e.SendInv) (hhands : e'.Hands)
    (hprogs : e'.pool.progs = e.pool.progs ++ [p])
    (htags : e'.pool.world.tags = e.pool.world.tags ++ [t])
    (hlog : e'.pool.world.log = e.pool.world.log) (hdb : e'.db = e.db)
    (hnew : ∀ q, t = .item (.retry q) → q ∈ e.toRetry)
    (htodo : ∀ q' ∈ e'.toRetry, q' ∈ e.toRetry ∧ ∀ q, t = .item (.retry q) → q.id ≠ q'.id)
    (hdistinct : (e'.toRetry.map (·.id)).Nodup) : e'.SendInv := by
  have hhand : ∀ {i org id}, e'.InHand i org id → _ :=
    fun h => inHand_spawn he.hands hprogs htags hlog h
  refine ⟨hhands, ?_, ?_, ?_, hdistinct, ?_, ?_⟩
  · intro i j org org' id hi hj
    rcases hhand hi with hi | ⟨rfl, q, hq, -, rfl⟩ <;> rcases hhand hj with hj | ⟨rfl, q', hq', -, hid⟩
    · exact he.alone i j org org' id hi hj
    · exact absurd (hid ▸ hi) ((he.toRetry q' (hnew q' hq')).2 i org)
    · exact absurd hj ((he.toRetry q (hnew q hq)).2 j org')
    · rfl
  · intro id hs i org hi
    rw [hdb] at hs
    rcases hhand hi with hi | ⟨rfl, q, hq, -, rfl⟩
    · exact he.idle id hs i org hi
    · rw [(he.toRetry q (hnew q hq)).1] at hs
      cases hs
  · intro q' hq'
    obtain ⟨hmem, hne⟩ := htodo q' hq'
    obtain ⟨hs, hno⟩ := he.toRetry q' hmem
    rw [hdb]
    refine ⟨hs, fun i org hi => ?_⟩
    rcases hhand hi with hi | ⟨rfl, q, hq, -, hid⟩
    · exact hno i org hi
    · exact hne q hq hid
  · intro id hd
    rw [hlog] at hd ⊢
    rw [hdb]
    refine (he.done id hd).imp_right fun ⟨i, org, hi, hown⟩ => ?_
    exact ⟨i, org, inHand_of_spawn hprogs htags hlog hi, hown⟩
  · rw [hlog]
    exact he.once

end

/-! ### A task's turn -/

section
variable {c : Choice} {t : Tag} {o : Op} {r : o.Res} (h : Turn e e' i c t o r)
include h

theorem Turn.inHand (hh : Holds t (own i e.pool.world.log) org id) : e.InHand i org id :=
  ⟨h.live, t, h.tag, hh⟩

theorem Turn.inHand_other (hj : j ≠ i) : e'.InHand j org id ↔ e.InHand j org id := by
  simp only [InHand, Pool.live, h.others j hj, h.tags, h.own_other hj]

theorem Turn.inHand_self (hi : e'.InHand i org id) :
    (e.InHand i org id ∧ o.marks id = false) ∨ o.records org id r = true := by
  obtain ⟨-, t', ht', hh⟩ := hi
  obtain rfl : t' = t := by
    rw [h.tags, h.tag] at ht'
    exact (Option.some.inj ht').symm
  rw [h.own_self] at hh
  have hm : o.marks id = false := hh.2 _ List.mem_cons_self
  cases hr : o.records org id r with
  | true => exact .inr rfl
  | false => exact .inl ⟨h.inHand ((holds_cons_of hr hm).mp hh), hm⟩

theorem Turn.inHand_stays (hmeets : e'.Sends)
    (hh : Holds t (own i e'.pool.world.log) org id)
    (hd : deliveries (own i e'.pool.world.log) id ≠ 0) : e'.InHand i org id := by
  have ht : e'.pool.world.tags[i]? = some t := h.tags ▸ h.tag
  refine ⟨?_, t, ht, hh⟩
  by_contra hdead
  exact hd (hmeets.of_dead ht (by simpa using hdead) org id hh)

theorem Turn.inHand_cases (hj : e'.InHand j org id) :
    (e.InHand j org id ∧ (j = i → o.marks id = false)) ∨ (j = i ∧ o.records org id r = true) := by
  by_cases hji : j = i
  · subst hji
    exact (h.inHand_self hj).imp (fun hold => ⟨hold.1, fun _ => hold.2⟩) fun hr => ⟨rfl, hr⟩
  · exact .inl ⟨(h.inHand_other hji).mp hj, fun heq => absurd heq hji⟩

theorem Turn.sent_cases (hs : e'.db.sent id = true) :
    e.db.sent id = true ∨
      (∃ org oc, o = .store (.markNotification org id oc) ∧ oc.status = .sent) ∨
      ∃ n, o = .store (.recordNotification n) ∧ n.status = .sent ∧ id = e.db.nextId := by
  rcases Sys.call_db h.call with heq | ⟨so, rfl, -, heq⟩
  · exact .inl ((Db.sent_of_eq (congrArg _ heq)).symm.trans hs)
  · rcases Db.sent_exec ((Db.sent_of_eq (congrArg _ heq)).symm.trans hs) with
      hs | ⟨org, oc, rfl, hs⟩ | ⟨n, rfl, hs, hid⟩
    · exact .inl hs
    · exact .inr (.inl ⟨org, oc, rfl, hs⟩)
    · exact .inr (.inr ⟨n, rfl, hs, hid⟩)

theorem Turn.inHand_touched (ht : Op.delivers id o r = true ∨ o.marks id = true) :
    ∃ org, e.InHand i org id := by
  obtain ⟨org, hh⟩ := h.holds_touched ht
  exact ⟨org, h.inHand hh⟩

section
variable (he : e.SendInv)
include he

theorem Turn.alone (hi : e'.InHand i' org id) (hj : e'.InHand j org' id) : i' = j := by
  rcases h.inHand_cases hi with ⟨hi, -⟩ | ⟨rfl, hi⟩ <;>
    rcases h.inHand_cases hj with ⟨hj, -⟩ | ⟨rfl, hj⟩
  · exact he.alone _ _ _ _ _ hi hj
  · exact absurd (he.inHand_lt hi) (h.records_fresh hj ▸ lt_irrefl _)
  · exact absurd (he.inHand_lt hj) (h.records_fresh hi ▸ lt_irrefl _)
  · rfl

theorem Turn.idle (hs : e'.db.sent id = true) : ¬ e'.InHand j org id := by
  intro hj
  rcases h.inHand_cases hj with ⟨hj, hm⟩ | ⟨rfl, hr⟩
  · rcases h.sent_cases hs with hs | ⟨org', oc, rfl, -⟩ | ⟨n, -, -, rfl⟩
    · exact he.idle id hs j org hj
    · have hi := h.inHand (h.guar.2 org' id oc rfl).1
      have := hm (he.alone j i org org' id hj hi)
      simp [Op.marks] at this
    · exact absurd (he.inHand_lt hj) (lt_irrefl _)
  · rcases h.sent_cases hs with hs | ⟨org', oc, rfl, -⟩ | ⟨n, rfl, hs, -⟩
    · exact absurd (Db.sent_lt he.hands.sound.keyed hs) (h.records_fresh hr ▸ lt_irrefl _)
    · cases hr
    · simp [Op.records, hs] at hr

theorem Turn.waiting {p : PendingNotification} (hp : p ∈ e.toRetry) :
    e'.db.sent p.id = false ∧ ∀ j org, ¬ e'.InHand j org p.id := by
  obtain ⟨hs, hno⟩ := he.toRetry p hp
  have hlt := (he.hands.waiting p hp).lt he.hands.sound.keyed
  refine ⟨?_, fun j org hj => ?_⟩
  · by_contra hs'
    rcases h.sent_cases (by simpa using hs') with hs' | ⟨org, oc, rfl, -⟩ | ⟨n, -, -, hid⟩
    · rw [hs] at hs'
      cases hs'
    · exact hno i org (h.inHand (h.guar.2 org p.id oc rfl).1)
    · exact absurd hlt (hid ▸ lt_irrefl _)
  · rcases h.inHand_cases hj with ⟨hj, -⟩ | ⟨rfl, hr⟩
    · exact hno j org hj
    · exact absurd hlt (h.records_fresh hr ▸ lt_irrefl _)

theorem Turn.first (hd : Op.delivers id o r = true) : deliveries e.pool.world.log id = 0 := by
  by_contra hne
  obtain ⟨org, hi⟩ := h.inHand_touched (.inl hd)
  rcases he.done id hne with hs | ⟨j, org', hj, hown⟩
  · exact he.idle id hs i org hi
  · obtain rfl := he.alone _ _ _ _ _ hj hi
    cases o with
    | notify channel notice id' attempt g =>
      simp only [Op.delivers, Bool.and_eq_true, beq_iff_eq] at hd
      obtain ⟨rfl, -⟩ := hd
      exact hown (h.guar.1 _ _ _ _ _ rfl).2
    | _ => cases hd

theorem Turn.once : deliveries e'.pool.world.log id ≤ 1 := by
  rw [h.log, deliveries_cons]
  split
  · next hd => rw [h.first he hd]
  · exact he.once id

theorem Turn.sent_stays (hs : e.db.sent id = true) : e'.db.sent id = true := by
  rcases Sys.call_db h.call with heq | ⟨so, rfl, -, heq⟩
  · exact (Db.sent_of_eq (congrArg _ heq)).trans hs
  · refine (Db.sent_of_eq (congrArg _ heq)).trans (Db.sent_stays hs ?_)
    rintro org oc rfl
    exact he.idle id hs i org (h.inHand (h.guar.2 org id oc rfl).1)

theorem Turn.sent_of_mark (hmark : ∀ org id oc, o = .store (.markNotification org id oc) →
      oc.status = .sent → c.fails = false) (hm : o.marks id = true)
    (hown : deliveries (own i e.pool.world.log) id ≠ 0) : e'.db.sent id = true := by
  cases o with
  | store so =>
    cases so with
    | markNotification org id' oc =>
      obtain rfl : id' = id := by simpa [Op.marks] using hm
      obtain ⟨hh, hsent⟩ := h.guar.2 org id' oc rfl
      obtain ⟨k, -, hrow⟩ := he.hands.rows i t org id' h.tag hh.1
      rcases Sys.call_store h.call with ⟨hf, -, -⟩ | ⟨-, -, hdb⟩
      · rw [hmark org id' oc rfl (hsent hown)] at hf
        cases hf
      · rw [Engine.db, hdb]
        exact Db.sent_mark lower (e.sys.tick c) hrow (hsent hown)
    | _ => cases hm
  | _ => cases hm

theorem Turn.done (hsends : e'.Sends)
    (hmark : ∀ org id oc, o = .store (.markNotification org id oc) → oc.status = .sent →
      c.fails = false)
    (hd : deliveries e'.pool.world.log id ≠ 0) :
    e'.db.sent id = true ∨
      ∃ j org, e'.InHand j org id ∧ deliveries (own j e'.pool.world.log) id ≠ 0 := by
  cases hdel : Op.delivers id o r with
  | true =>
    obtain ⟨org, -, t', ht', hh⟩ := h.inHand_touched (.inl hdel)
    obtain rfl := Option.some.inj (ht'.symm.trans h.tag)
    have hh' : Holds t' (own i e'.pool.world.log) org id := by
      rw [h.own_self]
      exact hh.cons (delivers_marks hdel)
    have hown : deliveries (own i e'.pool.world.log) id ≠ 0 := by
      simp [h.own_self, deliveries_cons, hdel]
    exact .inr ⟨i, org, h.inHand_stays hsends hh' hown, hown⟩
  | false =>
    rw [h.log, deliveries_cons_of_not hdel] at hd
    rcases he.done id hd with hs | ⟨j, org, hj, hown⟩
    · exact .inl (h.sent_stays he hs)
    · by_cases hji : j = i
      · subst hji
        obtain ⟨-, t', ht', hh⟩ := hj
        obtain rfl := Option.some.inj (ht'.symm.trans h.tag)
        cases hm : o.marks id with
        | true => exact .inl (h.sent_of_mark he hmark hm hown)
        | false =>
          have hh' : Holds t' (own j e'.pool.world.log) org id := by
            rw [h.own_self]
            exact hh.cons hm
          have hown' : deliveries (own j e'.pool.world.log) id ≠ 0 := by
            rw [h.own_self, deliveries_cons_of_not hdel]
            exact hown
          exact .inr ⟨j, org, h.inHand_stays hsends hh' hown', hown'⟩
      · exact .inr ⟨j, org, (h.inHand_other hji).mpr hj, h.own_other hji ▸ hown⟩

end

end

theorem SendInv.of_turn {c : Choice} {t : Tag} {o : Op} {r : o.Res} (he : e.SendInv)
    (hhands : e'.Hands) (h : Turn e e' i c t o r)
    (hmark : ∀ org id oc, o = .store (.markNotification org id oc) → oc.status = .sent →
      c.fails = false) : e'.SendInv where
  hands := hhands
  alone := fun _ _ _ _ _ hi hj => h.alone he hi hj
  idle := fun _ hs _ _ => h.idle he hs
  toRetry := fun _ hp => h.waiting he (h.toRetry ▸ hp)
  distinct := h.toRetry ▸ he.distinct
  done := fun _ hd => h.done he hhands.sends hmark hd
  once := fun _ => h.once he

/-! ## Runs -/

theorem retries_scan_nodup (hk : e.db.Keyed) (now : Time) (ph : Phase) :
    ((retries (wk.scan now e.db ph).1).map (·.id)).Nodup := by
  have hother : ∀ items : List Item, (∀ p, Item.retry p ∉ items) → retries items = [] := by
    intro items h
    refine List.eq_nil_iff_forall_not_mem.mpr fun p hp => h p (mem_retries.1 hp)
  cases ph with
  | retryPending =>
    have heq : retries (wk.scan now e.db .retryPending).1 =
        e.db.pendingNotifications now (max wk.cfg.maxPagesPerTick 1) wk.cfg.maxAttempts := by
      simp [retries, Worker.scan, List.filterMap_map]
    rw [heq]
    exact Db.pending_nodup hk now _ _
  | _ =>
    rw [hother]
    · exact List.nodup_nil
    · intro p
      simp [Worker.scan]

theorem sendInv_step (he : e.SendInv) (hok : Apart wk e l) (h : e.step wk l = some e') :
    e'.SendInv := by
  have hhands := hands_step he.hands h
  cases step_cases h with
  | task hP =>
    obtain ⟨t, o, r, hturn⟩ := he.hands.turn_of_sched hP
    refine he.of_turn hhands hturn fun org id oc ho hs => ?_
    subst ho
    exact hok.mark _ _ org id oc rfl hturn.next hs
  | recv hs =>
    exact he.of_spawn hhands rfl rfl rfl rfl (fun q hq => by (cases hq))
      (fun q hq => ⟨hq, fun _ h => by (cases h)⟩) he.distinct
  | request =>
    exact he.of_spawn hhands rfl rfl rfl rfl (fun q hq => by (cases hq))
      (fun q hq => ⟨hq, fun _ h => by (cases h)⟩) he.distinct
  | tick hs =>
    exact he.of_still hhands rfl rfl rfl rfl (fun p hp => absurd hp List.not_mem_nil) List.nodup_nil
  | scanFailed hs hf =>
    exact he.of_still hhands rfl rfl rfl rfl (fun p hp => absurd hp List.not_mem_nil) List.nodup_nil
  | @scan c ph running hs hf =>
    have hkeyed := he.hands.sound.keyed
    refine he.of_still hhands rfl rfl rfl (scan_rows lower wk (e.sys.tick c) e.db ph).1
      (fun p hp => ?_) (retries_scan_nodup hkeyed _ ph)
    have hmem := mem_retries.1 hp
    obtain ⟨n, hn, hid, -, -, hstatus⟩ := retry_scan hmem
    refine ⟨?_, fun i org => hok.scan c ph running p i rfl hs hmem org⟩
    exact hid ▸ Db.sent_eq_false hkeyed hn hstatus
  | @start ph it rest running hs =>
    have htodo : e.toRetry = retries (it :: rest) := by simp [toRetry, hs]
    have hrest : ∀ q ∈ retries rest, q ∈ e.toRetry := by
      intro q hq
      rw [htodo]
      exact mem_retries.2 (List.mem_cons_of_mem _ (mem_retries.1 hq))
    have hnd : (retries (it :: rest)).map (·.id) |>.Nodup := htodo ▸ he.distinct
    cases it with
    | retry p =>
      have hcons : retries (.retry p :: rest) = p :: retries rest := rfl
      rw [hcons, List.map_cons, List.nodup_cons] at hnd
      refine he.of_spawn hhands rfl rfl rfl rfl (fun q hq => ?_) (fun q' hq' => ?_) hnd.2
      · cases hq
        exact htodo ▸ mem_retries.2 List.mem_cons_self
      · refine ⟨hrest q' hq', fun q hq hid => ?_⟩
        cases hq
        exact hnd.1 (hid ▸ List.mem_map_of_mem hq')
    | _ =>
      exact he.of_spawn hhands rfl rfl rfl rfl (fun q hq => by (cases hq))
        (fun q hq => ⟨hrest q hq, fun _ h => by (cases h)⟩) hnd
  | @advance ph todo running hs hl =>
    refine he.of_still hhands rfl rfl rfl rfl (fun _ hp => ?_) ?_
    · cases hn : ph.next <;> simp [toRetry, hn] at hp
    · cases ph.next <;> simp [toRetry]

theorem SendInv.not_marking (he : e.SendInv) {oc : NotificationOutcome}
    (h : e.Next i (.store (.markNotification org id oc))) : e.db.sent id = false := by
  obtain ⟨k, hk⟩ := h
  obtain ⟨t, ht⟩ := he.hands.sends.tag_of_prog hk
  obtain ⟨r, w', hc⟩ : ∃ r w', e.pool.world.call i (.store (.markNotification org id oc))
      Choice.calm = some (r, w') := ⟨_, _, rfl⟩
  have hguar := (he.hands.sends.meets i t _ ht hk _ rfl Choice.calm r w' hc (he.hands.assumed hc)).1
  by_contra hs
  refine he.idle id (by simpa using hs) i org ⟨?_, t, ht, (hguar.2 org id oc rfl).1⟩
  simp [Pool.live, hk, Prog.isDone]

end Engine

/-- **One page, one send**, in every run whose retry scans pick up no row in a task's hands
and whose deliveries are marked: no row is delivered twice, and no task is ever about to
mark a row that is already `sent`. -/
theorem one_send_of_apart (lower : String → String) (wk : Worker) (db : Db) (hdb : db.Keyed)
    (clock : Time) (e : Engine lower)
    (h : Run (Engine.step wk) (Engine.Apart wk) (Engine.boot lower db clock) e) :
    (∀ id, deliveries e.pool.world.log id ≤ 1) ∧
      ∀ i org id oc, e.Next i (.store (.markNotification org id oc)) → e.db.sent id = false := by
  have he : e.SendInv := h.invariant (Engine.sendInv_boot hdb clock) fun _ _ _ hi hok hstep =>
    Engine.sendInv_step hi hok hstep
  exact ⟨he.once, fun _ _ _ _ hnext => he.not_marking hnext⟩

/-- A computable part of the guard: no scan while a task runs, and no failing call. -/
def Engine.apartNow {lower : String → String} (e : Engine lower) : Label → Bool
  | .task _ c => !c.fails
  | .scan _ => !(List.range e.pool.progs.length).any e.pool.live
  | _ => true

theorem Engine.apart_of_apartNow {lower : String → String} (wk : Worker) (e : Engine lower)
    (l : Label) (h : e.apartNow l = true) : Engine.Apart wk e l where
  scan := by
    rintro c ph running p i rfl - - org ⟨hlive, t, ht, -⟩
    have hi : i < e.pool.progs.length := by
      by_contra hi
      simp [Pool.live, List.getElem?_eq_none (Nat.le_of_not_lt hi)] at hlive
    simp only [Engine.apartNow, Bool.not_eq_true', List.any_eq_false, List.mem_range] at h
    exact h i hi hlive
  mark := by
    rintro i c org id oc rfl - -
    simpa [Engine.apartNow] using h

def Choice.down : Choice := { Choice.calm with delivery := .error "down" }

/-- A page whose first delivery fails, and whose retry gets through. -/
theorem one_send_of_apart_retried : ∃ e : Engine id,
    (decide (deliveries e.pool.world.log 1001 = 1) && e.db.sent 1001) = true ∧
      (∀ id, deliveries e.pool.world.log id ≤ 1) ∧
      ∀ i org id oc, e.Next i (.store (.markNotification org id oc)) → e.db.sent id = false := by
  have h : (steps (guarded (Engine.step Sample.worker) Engine.apartNow)
      (Engine.boot id Sample.flat 1)
      (Sample.opening ++ Sample.go 1 11 ++ ([.task 1 .down] : List Label) ++ Sample.go 1 4 ++
        Sample.sweepTo 4 ++
        ([.advance, .scan { Choice.calm with elapsed := 100000000 }, .start] : List Label) ++
        Sample.go 2 7)).any
      (fun e => decide (deliveries e.pool.world.log 1001 = 1) && e.db.sent 1001) = true := by
    decide +kernel
  obtain ⟨e, hrun, hsent⟩ := exists_run_of_steps h
  exact ⟨e, hsent, one_send_of_apart id Sample.worker Sample.flat Sample.flat_keyed 1 e
    (hrun.unguard (Engine.apart_of_apartNow Sample.worker))⟩

/-- A sweep passes between the first delivery of a row and its mark, and retries it: the
row is delivered twice. -/
theorem sent_twice : ∃ e : Engine id,
    Run (Engine.step Sample.worker) (fun _ _ => True) (Engine.boot id Sample.flat 1) e ∧
      decide (deliveries e.pool.world.log 1001 = 2) = true := by
  have h : (steps (Engine.step Sample.worker) (Engine.boot id Sample.flat 1)
      (Sample.opening ++ Sample.go 1 12 ++ Sample.sweepTo 5 ++ ([.start] : List Label) ++
        Sample.go 2 4)).any
      (fun e => decide (deliveries e.pool.world.log 1001 = 2)) = true := by
    decide +kernel
  exact exists_run_of_steps h

end Uptimepage
