import Uptimepage.Series.Runs
import Uptimepage.Store.Commits
import Uptimepage.Writer.OneSignal

/-!
# Incidents that do not overlap

An incident the writer opens starts in the past, where the bad run that made the quorum
began, whatever has happened to earlier incidents since: when an operator resolves an
incident while the monitor is still down, the next tick opens another one with the same
start, and the outage counts twice (`outage_counted_twice`).
-/

namespace Uptimepage

open Async

/-- The interval of an incident, `[started_at, ended_at)`. -/
def IncidentRow.Covers (i : IncidentRow) (t : Time) : Prop :=
  i.startedAt ≤ t ∧ ∀ ended ∈ i.endedAt, t < ended

namespace Db

variable {lower : String → String} {now : Time} {db : Db} {o : StoreOp}

/-- The monitors' incidents of one target are disjoint, reopened ones apart. -/
def NoOverlap (db : Db) : Prop :=
  ∀ i ∈ db.incidents, ∀ j ∈ db.incidents, i.id ≠ j.id → i.origin = .monitor →
    j.origin = .monitor → i.org = j.org → i.targetId = j.targetId → i.targetId ≠ none →
    db.reopenCount i.org i.id = 0 → db.reopenCount j.org j.id = 0 →
    ∀ t, ¬ (i.Covers t ∧ j.Covers t)

theorem RowStep.covers {r r' : IncidentRow} (h : RowStep now o r r') :
    (∃ began actor note, o = .reopen began r.org r.id actor note) ∨
      ∀ t, r'.Covers t → r.Covers t := by
  have hopen : r.endedAt = none → ∀ t, r'.startedAt ≤ t → r'.startedAt = r.startedAt →
      r.Covers t := by
    intro hnone t hle heq
    refine ⟨heq ▸ hle, fun ended hended => ?_⟩
    rw [hnone] at hended
    cases hended
  have hkept : ∀ {began : Time}, r'.endedAt = r.endedAt.or (some began) →
      r'.startedAt = r.startedAt → ∀ t, r'.Covers t → r.Covers t := by
    rintro began hended heq t ⟨hle, hlt⟩
    refine ⟨heq ▸ hle, fun ended hsome => hlt ended ?_⟩
    rw [hended, hsome]
    rfl
  cases h with
  | resolved _ => exact .inr (hkept rfl rfl)
  | autoResolved _ => exact .inr (hkept rfl rfl)
  | reopened _ => exact .inl ⟨_, _, _, rfl⟩
  | closed hnone => exact .inr fun t ht => hopen hnone t ht.1 rfl
  | _ => exact .inr fun t ht => ht

theorem covers_of_unopened {r r' : IncidentRow} (hkeyed : Keyed db) (hr : r ∈ db.incidents)
    (hstep : RowStep now o r r') (hr' : r' ∈ (db.exec lower now o).2.incidents)
    (hcount : (db.exec lower now o).2.reopenCount r.org r.id = 0) :
    ∀ t, r'.Covers t → r.Covers t := by
  rcases hstep.covers with ⟨began, actor, note, rfl⟩ | hcovers
  · cases hc : committed (db.reopen began r.org r.id actor note).1 with
    | true =>
      have := (reopen_counts hc).1
      rw [show (db.exec lower now (.reopen began r.org r.id actor note)).2 =
        (db.reopen began r.org r.id actor note).2 from rfl] at hcount
      omega
    | false =>
      -- nothing was written
      rcases transition_cases db began r.org r.id (reopenTransition actor note) with
        ⟨hsame, -⟩ | ⟨cur, next, -, -, -, heq⟩
      · rw [show (db.exec lower now (.reopen began r.org r.id actor note)).2 = db from hsame]
          at hr'
        have hrow : r' = r := List.inj_on_of_nodup_map hkeyed.incidents hr' hr hstep.keeps.2.1
        rw [hrow]
        exact fun t ht => ht
      · rw [reopen, heq] at hc
        cases hc
  · exact hcovers

theorem noOverlap_exec (hkeyed : Keyed db) (h : NoOverlap db)
    (hrows : Rewrites now o db (db.exec lower now o).2.incidents) :
    NoOverlap (db.exec lower now o).2 := by
  obtain ⟨f, heq, -, -, hstep⟩ := hrows
  have hrow : ∀ r ∈ db.incidents, RowStep now o r (f r) :=
    fun r hr => hstep r.org r.id r (hkeyed.incident_eq hr)
  intro i' hi' j' hj' hne hio hjo horg htarget hsome hicount hjcount t ⟨hit, hjt⟩
  have hi'' := hi'
  have hj'' := hj'
  rw [heq] at hi' hj'
  obtain ⟨i, hi, rfl⟩ := List.mem_map.mp hi'
  obtain ⟨j, hj, rfl⟩ := List.mem_map.mp hj'
  obtain ⟨hiorg, hiid, hiorigin, -⟩ := (hrow i hi).keeps
  obtain ⟨hjorg, hjid, hjorigin, -⟩ := (hrow j hj).keeps
  rw [hiorg, hiid] at hicount
  rw [hjorg, hjid] at hjcount
  have hmono : ∀ r : IncidentRow, (db.exec lower now o).2.reopenCount r.org r.id = 0 →
      db.reopenCount r.org r.id = 0 := by
    intro r hr
    have := reopenCount_mono lower now o db r.org r.id
    omega
  rw [(hrow i hi).targetId_eq] at hsome
  refine h i hi j hj (by rwa [hiid, hjid] at hne) (hiorigin ▸ hio) (hjorigin ▸ hjo)
    (by rwa [hiorg, hjorg] at horg)
    (by rwa [(hrow i hi).targetId_eq, (hrow j hj).targetId_eq] at htarget) hsome
    (hmono i hicount) (hmono j hjcount) t
    ⟨covers_of_unopened hkeyed hi (hrow i hi) hi'' hicount t hit,
      covers_of_unopened hkeyed hj (hrow j hj) hj'' hjcount t hjt⟩

theorem noOverlap_append {db' : Db} {r : IncidentRow} (h : NoOverlap db)
    (heq : db'.incidents = db.incidents ++ [r])
    (hmono : ∀ org id, db.reopenCount org id ≤ db'.reopenCount org id)
    (hnew : r.origin = .monitor → ∀ i ∈ db.incidents, i.origin = .monitor → i.org = r.org →
      i.targetId = r.targetId → r.targetId ≠ none → db.reopenCount i.org i.id = 0 →
      ∀ t, ¬ (i.Covers t ∧ r.Covers t)) : NoOverlap db' := by
  have hzero : ∀ {i : IncidentRow}, db'.reopenCount i.org i.id = 0 →
      db.reopenCount i.org i.id = 0 := by
    intro i hi
    have := hmono i.org i.id
    omega
  intro i hi j hj hne hio hjo horg htarget hsome hicount hjcount t ⟨hit, hjt⟩
  rw [heq] at hi hj
  rcases List.mem_append.mp hi with hiold | hinew
  · rcases List.mem_append.mp hj with hjold | hjnew
    · exact h i hiold j hjold hne hio hjo horg htarget hsome (hzero hicount) (hzero hjcount) t
        ⟨hit, hjt⟩
    · obtain rfl := List.mem_singleton.mp hjnew
      exact hnew hjo i hiold hio horg htarget (htarget ▸ hsome) (hzero hicount) t ⟨hit, hjt⟩
  · obtain rfl := List.mem_singleton.mp hinew
    rcases List.mem_append.mp hj with hjold | hjnew
    · exact hnew hio j hjold hjo horg.symm htarget.symm hsome (hzero hjcount) t ⟨hjt, hit⟩
    · exact hne (congrArg (·.id) (List.mem_singleton.mp hjnew)).symm

end Db

namespace TargetTick

/-- The quorum a tick decides by. -/
def quorum (t : TargetTick) : Nat := t.target.regionPolicy.required t.groups.length

/-- The confirmed bad runs a tick decides on, earliest first. -/
def confirmed (t : TargetTick) : List Verdict :=
  confirmedBad (max t.target.alertConfirmations 1) (verdicts t.groups)

/-- The next action of the tick opens an incident. -/
def opens (t : TargetTick) : Bool :=
  match t.todo with
  | .open_ _ :: _ => true
  | _ => false

/-- Every action the tick has still to apply is one it decided on. -/
def Decided (t : TargetTick) : Prop :=
  ∀ a ∈ t.todo, ∃ opens, a ∈ decideMulti t.target.id opens t.groups
    (max t.target.alertConfirmations 1) t.quorum

theorem startedAt_ge {t : TargetTick} {new : NewOpenIncident} {rest : List Action} {ended : Time}
    (hdecided : t.Decided) (htodo : t.todo = .open_ new :: rest)
    (hcount : t.confirmed.countP (fun v => runStart v.bad < ended) < t.quorum) :
    ended ≤ new.startedAt := by
  obtain ⟨opens, hmem⟩ := hdecided (.open_ new) (htodo ▸ List.mem_cons_self)
  obtain ⟨-, trigger, htrigger, hstarted⟩ := decideMulti_open hmem
  have hlen : (verdicts t.groups).length = t.groups.length := List.length_map _
  have hthreshold : max (max t.target.alertConfirmations 1) 1 =
      max t.target.alertConfirmations 1 := by omega
  rw [hlen, quorum, required_clamped, hthreshold] at htrigger
  have hsorted : t.confirmed.Pairwise fun v w => runStart v.bad ≤ runStart w.bad :=
    List.pairwise_insertionSort _ _
  rw [hstarted]
  exact Series.le_of_countP_le hsorted htrigger (Nat.le_sub_one_of_lt hcount)

end TargetTick

namespace Writer

variable {lower : String → String} {lookback : Int} {s s' : Writer Db}
  {e : WriterEvent { o : StoreOp // byOthers o = true }}

/-- When a tick opens an incident, fewer regions than the quorum were down already before an
earlier incident of the monitor ended. -/
def Apart (s : Writer Db) : WriterEvent { o : StoreOp // byOthers o = true } → Prop
  | .write i _ => ∀ t ∈ s.ticks[i]?, t.opens = true →
    ∀ j ∈ s.store.incidents, j.origin = .monitor → j.org = t.org →
      j.targetId = some t.target.id → s.store.reopenCount j.org j.id = 0 →
      ∀ ended ∈ j.endedAt, j.startedAt < ended →
        t.confirmed.countP (fun v => runStart v.bad < ended) < t.quorum
  | _ => True

instance (s : Writer Db) : DecidablePred s.Apart
  | .write _ _ =>
    inferInstanceAs (Decidable (∀ _ ∈ _, _ → ∀ _ ∈ _, _ → _ → _ → _ → ∀ _ ∈ _, _ → _))
  | .read _ _ _ _ | .failed _ | .signal _ _ | .operate _ _ => inferInstanceAs (Decidable True)

theorem decided_step (h : ∀ t ∈ s.ticks, t.Decided)
    (hstep : s.step (pgStore lower) lookback e = some s') : ∀ t ∈ s'.ticks, t.Decided := by
  have hset : ∀ {i : Nat} {t t' : TargetTick}, s.ticks[i]? = some t → t'.target = t.target →
      t'.groups = t.groups → t'.todo ⊆ t.todo → ∀ u ∈ s.ticks.set i t', u.Decided := by
    intro i t t' hi htarget hgroups htodo u hu
    rcases List.mem_or_eq_of_mem_set hu with hold | rfl
    · exact h u hold
    · intro a ha
      obtain ⟨opens, hmem⟩ := h t (List.mem_of_getElem? hi) a (htodo ha)
      refine ⟨opens, ?_⟩
      rwa [TargetTick.quorum, htarget, hgroups]
  cases step_move hstep with
  | read org target tagged now =>
    intro t ht
    rcases List.mem_append.mp ht with hold | hnew
    · exact h t hold
    · rw [List.mem_singleton.mp hnew]
      exact fun a ha => ⟨_, ha⟩
  | quiet hi _ htodo _ => exact hset hi rfl rfl htodo
  | inserted hi _ htodo _ => exact hset hi rfl rfl (htodo ▸ List.subset_cons_self _ _)
  | closed hi _ htodo _ => exact hset hi rfl rfl (htodo ▸ List.subset_cons_self _ _)
  | signalled hi _ => exact hset hi rfl rfl (List.Subset.refl _)
  | operated now o => exact h

theorem noOverlap_inserted {i : Nat} {t : TargetTick} {new : NewOpenIncident}
    {rest : List Action} {now : Time} {id : Uuid} {db' : Db} (hkeyed : s.store.Keyed)
    (h : s.store.NoOverlap) (hok : s.Apart (.write i now)) (hdecided : t.Decided)
    (hi : s.ticks[i]? = some t) (htodo : t.todo = .open_ new :: rest)
    (hins : s.store.insertOpen now t.org new = (.ok (some id), db')) : db'.NoOverlap := by
  rcases Db.insertOpen_cases s.store now t.org new with ⟨-, hno⟩ | ⟨hclear, heq⟩
  · exact absurd (congrArg Prod.fst hins) (hno id)
  rw [heq] at hins
  obtain ⟨-, rfl⟩ := Prod.mk.inj hins
  obtain ⟨opens, hmem⟩ := hdecided (.open_ new) (htodo ▸ List.mem_cons_self)
  have htarget := (decideMulti_open hmem).1
  have hopens : t.opens = true := by
    rw [TargetTick.opens, htodo]
  have hapart := hok t hi hopens
  refine Db.noOverlap_append h rfl (fun _ _ => le_refl _) ?_
  rintro - j hj hjo horg hjt - hjcount u ⟨hju, hnew⟩
  have hjtarget : j.targetId = some new.targetId := hjt
  cases hended : j.endedAt with
  | none =>
    have hid := Db.openConflict_eq_false hclear (Option.some_ne_none _) hj horg hjtarget hended hjo
    exact absurd hid (Nat.ne_of_lt (hkeyed.incidents_lt j hj))
  | some ended =>
    have hlt : u < ended := hju.2 ended hended
    have hge := TargetTick.startedAt_ge hdecided htodo
      (hapart j hj hjo horg (htarget ▸ hjtarget) hjcount ended hended (lt_of_le_of_lt hju.1 hlt))
    exact absurd (lt_of_lt_of_le hlt hge) (not_lt.mpr hnew.1)

/-- What a run keeps: the store's own invariant, the ticks' decisions, and disjointness. -/
structure Separate (s : Writer Db) : Prop where
  inv : PgInv s.store
  decided : ∀ t ∈ s.ticks, t.Decided
  noOverlap : s.store.NoOverlap

theorem separate_start : (start Db.empty).Separate := by
  refine ⟨pgInv_empty, fun t ht => ?_, fun i hi => ?_⟩
  · cases ht
  · cases hi

theorem separate_step (h : s.Separate) (hok : s.Apart e)
    (hstep : s.step (pgStore lower) lookback e = some s') : s'.Separate := by
  have hdecided := decided_step h.decided hstep
  have hexec : ∀ now o, byOthers o = true ∨ (∃ org id at_, o = .close org id at_) →
      (s.store.exec lower now o).2.NoOverlap := by
    intro now o ho
    rcases Db.exec_incidents lower now o s.store with ⟨r, hnew, heq, -⟩ | hrows
    · refine Db.noOverlap_append h.noOverlap heq (Db.reopenCount_mono lower now o s.store) ?_
      cases hnew with
      | declared => exact fun horigin => by cases horigin
      | opened =>
        rcases ho with ho | ⟨org, id, at_, ho⟩
        · cases ho
        · cases ho
    · exact Db.noOverlap_exec h.inv.1 h.noOverlap hrows
  cases step_move hstep with
  | read org target tagged now => exact ⟨h.inv, hdecided, h.noOverlap⟩
  | @quiet _ i t todo st _ _ _ hst =>
    have hsame : st = s.store := by
      rcases hst with heq | ⟨now, new, r, hins, hno⟩ | ⟨now, id, endedAt, hclose⟩
      · exact heq
      · exact pg_notInserted hins hno
      · exact pg_notClosed hclose
    subst hsame
    exact ⟨h.inv, hdecided, h.noOverlap⟩
  | @inserted i t new rest now id st hi _ htodo hins =>
    have hst : (s.store.exec lower now (.insertOpen t.org new)).2 = st := congrArg Prod.snd hins
    have hti := h.decided t (List.mem_of_getElem? hi)
    exact ⟨hst ▸ pgInv_exec h.inv _, hdecided,
      noOverlap_inserted h.inv.1 h.noOverlap hok hti hi htodo hins⟩
  | @closed i t id endedAt rest now st _ _ _ hclose =>
    have hst : (s.store.exec lower now (.close t.org id endedAt)).2 = st :=
      congrArg Prod.snd hclose
    exact ⟨hst ▸ pgInv_exec h.inv _, hdecided, hst ▸ hexec now _ (.inr ⟨_, _, _, rfl⟩)⟩
  | signalled _ _ => exact ⟨h.inv, hdecided, h.noOverlap⟩
  | operated now o => exact ⟨pgInv_exec h.inv o.1, hdecided, hexec now o.1 (.inl o.2)⟩

/-- **Monitor-opened incidents of one target never overlap**, in a run in which every
incident is opened by regions that went down after the earlier ones ended. -/
theorem noOverlap_of_apart
    (hrun : Run (step (pgStore lower) lookback) Apart (start Db.empty) s) : s.store.NoOverlap :=
  (hrun.invariant separate_start fun _ _ _ hu hok hstep => separate_step hu hok hstep).noOverlap

section

open Decide.Sample

/-- The monitor recovers between two outages. -/
theorem noOverlap_of_apart_recovered :
    ∃ s, Run (step (pgStore id) (seconds 600)) Apart (start Db.empty) s ∧
      s.store.incidents.map (·.endedAt) = [some (seconds 120), none] ∧ s.store.NoOverlap := by
  let first : List (String × CheckResult) := [("eu", result 0 .down), ("eu", result 60 .down)]
  let up : List (String × CheckResult) := first ++ [("eu", result 120 .up), ("eu", result 180 .up)]
  let second : List (String × CheckResult) :=
    up ++ [("eu", result 240 .down), ("eu", result 300 .down)]
  let events : List (WriterEvent { o : StoreOp // byOthers o = true }) :=
    [.read 1 target first (seconds 70), .write 0 (seconds 70), .signal 0 true,
      .read 1 target up (seconds 190), .write 1 (seconds 190), .signal 1 true,
      .read 1 target second (seconds 310), .write 2 (seconds 310)]
  let allow : Writer Db → WriterEvent { o : StoreOp // byOthers o = true } → Bool :=
    fun s e => decide (s.Apart e)
  obtain ⟨s, hrun, hs⟩ : ∃ s : Writer Db,
      Run (guarded (step (pgStore id) (seconds 600)) allow) (fun _ _ => True) (start Db.empty) s ∧
      s.store.incidents.map (·.endedAt) = [some (seconds 120), none] :=
    exists_run_satisfying events (by decide +kernel)
  have hrun' := Run.unguard (fun _ _ h => of_decide_eq_true h) hrun
  exact ⟨s, hrun', hs, noOverlap_of_apart hrun'⟩

/-- An operator resolves the incident while the monitor is down; the next tick opens another
one that starts with the same check. -/
theorem outage_counted_twice :
    ∃ s, Run (step (pgStore id) (seconds 600)) (fun _ _ => True) (start Db.empty) s ∧
      s.store.incidents.map (fun i => (i.startedAt, i.endedAt)) =
        [(0, some (seconds 100)), (0, none)] ∧ ¬ s.store.NoOverlap := by
  let down : List (String × CheckResult) := [("eu", result 0 .down), ("eu", result 60 .down)]
  let events : List (WriterEvent { o : StoreOp // byOthers o = true }) :=
    [.read 1 target down (seconds 70), .write 0 (seconds 70), .signal 0 true,
      .operate (seconds 100) ⟨.resolve (seconds 100) 1 0 (.user 3) none, rfl⟩,
      .read 1 target (down ++ [("eu", result 120 .down)]) (seconds 130), .write 1 (seconds 130)]
  obtain ⟨s, hrun, hs⟩ : ∃ s : Writer Db,
      Run (step (pgStore id) (seconds 600)) (fun _ _ => True) (start Db.empty) s ∧
      s.store.incidents.map (fun i => (i.startedAt, i.endedAt)) =
          [(0, some (seconds 100)), (0, none)] ∧
        ∃ i ∈ s.store.incidents, ∃ j ∈ s.store.incidents, (i.id ≠ j.id ∧ i.origin = .monitor ∧
          j.origin = .monitor ∧ i.org = j.org ∧ i.targetId = j.targetId ∧ i.targetId ≠ none) ∧
          s.store.reopenCount i.org i.id = 0 ∧ s.store.reopenCount j.org j.id = 0 ∧
          (i.startedAt = 0 ∧ i.endedAt = some (seconds 100)) ∧
          j.startedAt = 0 ∧ j.endedAt = none :=
    exists_run_satisfying events (by decide +kernel)
  obtain ⟨hrows, i, hi, j, hj, ⟨hne, hio, hjo, horg, htarget, hsome⟩, hicount, hjcount,
    ⟨histart, hiend⟩, hjstart, hjend⟩ := hs
  refine ⟨s, hrun, hrows, fun h => ?_⟩
  refine h i hi j hj hne hio hjo horg htarget hsome hicount hjcount 0 ⟨⟨?_, ?_⟩, ?_, ?_⟩
  · exact le_of_eq histart
  · intro ended hended
    rw [hiend] at hended
    cases hended
    decide
  · exact le_of_eq hjstart
  · intro ended hended
    rw [hjend] at hended
    cases hended

end

end Writer

end Uptimepage
