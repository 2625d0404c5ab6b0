import Uptimepage.Writer.OneSignal

/-!
# No flapping on unchanged data

`process_target` of `incident_writer/mod.rs`, run again on the same results.  What it opens it does
not close again, and what it closes it does not open again: opening needs a quorum of confirmed bad
runs and closing needs that there is none (`SteadyStore` says what is asked of a store for that).
-/

namespace Uptimepage

namespace Writer

section

variable {σ ο : Type} (is : IncidentStore σ ο)

/-- Applies the actions in order; a statement that fails ends the run. -/
def applyActions (now : Time) (org : OrgId) : List Action → σ → σ × List IncidentSignal
  | [], st => (st, [])
  | .none :: rest, st => applyActions now org rest st
  | .open_ new :: rest, st =>
    match is.insertOpen now org new st with
    | (.ok (some id), st) =>
      let r := applyActions now org rest st
      (r.1, ⟨org, id, .opened⟩ :: r.2)
    | (.ok none, st) => applyActions now org rest st
    | (.error _, st) => (st, [])
  | .close id endedAt :: rest, st =>
    match is.close now org id endedAt st with
    | (true, st) =>
      let r := applyActions now org rest st
      (r.1, ⟨org, id, .resolved⟩ :: r.2)
    | (false, st) => applyActions now org rest st

/-- The results of a monitor as `process_target` is given them. -/
structure TargetData where
  org : OrgId
  target : ProbedTarget
  tagged : List (String × CheckResult)
  now : Time

/-- `process_target` on the incidents that are open, its statements made at `t`. -/
def processTarget (lookback : Int) (data : TargetData) (t : Time) (st : σ) :
    σ × List IncidentSignal :=
  applyActions is t data.org
    (decideTarget lookback data.target (is.openFor st data.org data.target.id) data.tagged data.now) st

/-- One run after another on the same data. -/
def processAgain (lookback : Int) (data : TargetData) : List Time → σ → σ × List IncidentSignal
  | [], st => (st, [])
  | t :: ts, st =>
    let r := processTarget is lookback data t st
    let r' := processAgain lookback data ts r.1
    (r'.1, r.2 ++ r'.2)

end

/-- What is asked of a store beyond its contract: a monitor without an open incident gets one, and
the open one can be closed. -/
structure SteadyStore {σ ο : Type} (is : IncidentStore σ ο) (Inv : σ → Prop) : Prop where
  lawful : LawfulStore is Inv
  whole : ∀ {st org targetId}, ∀ inc ∈ is.openFor st org targetId, inc.region = none
  opens : ∀ {st org new} (now : Time), Inv st → is.openFor st org new.targetId = [] →
    new.statusAtStart ≠ .up → ∃ id st', is.insertOpen now org new st = (.ok (some id), st') ∧
      ∃ inc, is.openFor st' org new.targetId = [inc]
  closes : ∀ {st org targetId inc} (now endedAt : Time), Inv st → is.openFor st org targetId = [inc] →
    ∃ st', is.close now org inc.id endedAt st = (true, st') ∧ is.openFor st' org targetId = []

/-! ## The decision -/

section

variable {targetId : Uuid} {groups : List (String × List CheckResult)} {confirmations quorum : Nat}
  {inc : OpenIncident}

theorem isBad_of_mem_confirmedBad {threshold : Nat} {v : Verdict} {r : CheckResult}
    (hv : v ∈ confirmedBad threshold (verdicts groups)) (hr : r ∈ v.bad) : r.status.isBad = true := by
  unfold confirmedBad at hv
  rw [List.mem_insertionSort] at hv
  obtain ⟨group, -, rfl⟩ := List.mem_map.mp (List.mem_filter.mp hv).1
  exact List.mem_rtakeWhile_imp (p := fun r : CheckResult => r.status.isBad) hr

theorem openAction_status (threshold q : Nat) (trigger origin : Verdict) :
    (openAction targetId threshold q (verdicts groups) trigger origin).statusAtStart ≠ .up := by
  show (maxByKey _ _).getD CheckStatus.down ≠ CheckStatus.up
  cases hmax : maxByKey CheckStatus.severityRank ((confirmedBad threshold (verdicts groups)).flatMap
      fun v => v.bad.map (·.status)) with
  | none => nofun
  | some status =>
    obtain ⟨v, hv, hstatus⟩ := List.mem_flatMap.mp (maxByKey_mem hmax)
    obtain ⟨r, hr, rfl⟩ := List.mem_map.mp hstatus
    have hbad := isBad_of_mem_confirmedBad hv hr
    intro hup
    rw [show r.status = .up from hup] at hbad
    cases hbad

theorem decideMulti_opened (targetId : Uuid) (groups : List (String × List CheckResult))
    (confirmations quorum : Nat) : decideMulti targetId [] groups confirmations quorum = [] ∨
      ∃ new, decideMulti targetId [] groups confirmations quorum = [.open_ new] ∧
        new.targetId = targetId ∧ new.statusAtStart ≠ .up ∧
        ∀ inc : OpenIncident, inc.region = none →
          decideMulti targetId [inc] groups confirmations quorum = [] := by
  unfold decideMulti
  dsimp only [List.find?_nil]
  split
  · next trigger origin htrigger horigin =>
    refine .inr ⟨_, rfl, rfl, openAction_status _ _ _ _, fun inc hwhole => ?_⟩
    rw [List.find?_cons_of_pos (by simpa using hwhole)]
    dsimp only
    -- the quorum that opened is there still
    rw [if_neg]
    have hlt := (List.getElem?_eq_some_iff.mp htrigger).1
    omega
  · exact .inl rfl

theorem decideMulti_closed (targetId : Uuid) (groups : List (String × List CheckResult))
    (confirmations quorum : Nat) (hwhole : inc.region = none) :
    decideMulti targetId [inc] groups confirmations quorum = [] ∨
      ∃ ended, decideMulti targetId [inc] groups confirmations quorum = [.close inc.id ended] ∧
        decideMulti targetId [] groups confirmations quorum = [] := by
  unfold decideMulti
  rw [List.find?_cons_of_pos (by simpa using hwhole)]
  dsimp only [List.find?_nil]
  split
  · next hfew =>
    split
    · next ended _ =>
      split
      · refine .inr ⟨ended, rfl, ?_⟩
        rw [List.getElem?_eq_none (by omega)]
      · exact .inl rfl
    · exact .inl rfl
  · exact .inl rfl

end

/-! ## On a store -/

section

variable {σ ο : Type} {is : IncidentStore σ ο} {Inv : σ → Prop} {st : σ} {lookback : Int}
  {data : TargetData}

theorem decide_again (h : SteadyStore is Inv) (hinv : Inv st) (t : Time) (org : OrgId)
    (targetId : Uuid) (groups : List (String × List CheckResult)) (confirmations quorum : Nat) :
    let st' := (applyActions is t org (decideMulti targetId (is.openFor st org targetId) groups
      confirmations quorum) st).1
    Inv st' ∧ decideMulti targetId (is.openFor st' org targetId) groups confirmations quorum = [] := by
  intro st'
  have hone := h.lawful.oneOpen hinv org targetId
  match hopens : is.openFor st org targetId with
  | [] =>
    rcases decideMulti_opened targetId groups confirmations quorum with
      hnone | ⟨new, hopen, rfl, hstatus, hkept⟩
    · have hsame : st' = st := by
        show (applyActions is t org (decideMulti _ (is.openFor st org targetId) _ _ _) st).1 = st
        rw [hopens, hnone]
        rfl
      rw [hsame, hopens]
      exact ⟨hinv, hnone⟩
    · obtain ⟨id, st₁, hinsert, inc, hinc⟩ := h.opens t hinv hopens hstatus
      have hst : st' = st₁ := by
        show (applyActions is t org (decideMulti _ (is.openFor st org new.targetId) _ _ _) st).1 = st₁
        rw [hopens, hopen]
        unfold applyActions
        rw [hinsert]
        rfl
      have hmem : inc ∈ is.openFor st₁ org new.targetId := by
        rw [hinc]
        exact List.mem_cons_self
      rw [hst, hinc]
      exact ⟨(h.lawful.inserted hinv hinsert).1, hkept inc (h.whole inc hmem)⟩
  | [inc] =>
    have hwhole : inc.region = none := h.whole inc (by rw [hopens]; exact List.mem_cons_self)
    rcases decideMulti_closed targetId groups confirmations quorum hwhole with
      hnone | ⟨ended, hclose, hkept⟩
    · have hsame : st' = st := by
        show (applyActions is t org (decideMulti _ (is.openFor st org targetId) _ _ _) st).1 = st
        rw [hopens, hnone]
        rfl
      rw [hsame, hopens]
      exact ⟨hinv, hnone⟩
    · obtain ⟨st₁, hclosed, hempty⟩ := h.closes t ended hinv hopens
      have hst : st' = st₁ := by
        show (applyActions is t org (decideMulti _ (is.openFor st org targetId) _ _ _) st).1 = st₁
        rw [hopens, hclose]
        unfold applyActions
        rw [hclosed]
        rfl
      rw [hst, hempty]
      exact ⟨(h.lawful.closed hinv hclosed).1, hkept⟩
  | _ :: _ :: _ =>
    rw [hopens] at hone
    simp at hone

theorem processAgain_steady (data : TargetData) (ts : List Time)
    (h : decideTarget lookback data.target (is.openFor st data.org data.target.id) data.tagged
      data.now = []) : processAgain is lookback data ts st = (st, []) := by
  induction ts with
  | nil => rfl
  | cons t ts ih =>
    have hrun : processTarget is lookback data t st = (st, []) := by
      unfold processTarget
      rw [h]
      rfl
    unfold processAgain
    rw [hrun]
    show ((processAgain is lookback data ts st).1, [] ++ (processAgain is lookback data ts st).2) = _
    rw [ih]
    rfl

theorem processAgain_once (h : SteadyStore is Inv) (hinv : Inv st) (data : TargetData) (t : Time)
    (ts : List Time) :
    processAgain is lookback data (t :: ts) st = processTarget is lookback data t st := by
  have hagain := (decide_again h hinv t data.org data.target.id
    (windowGroups lookback data.target data.tagged data.now) (max data.target.alertConfirmations 1)
    (data.target.regionPolicy.required
      (windowGroups lookback data.target data.tagged data.now).length)).2
  have hrest : processAgain is lookback data ts (processTarget is lookback data t st).1 =
      ((processTarget is lookback data t st).1, []) := processAgain_steady data ts hagain
  show ((processAgain is lookback data ts (processTarget is lookback data t st).1).1,
    (processTarget is lookback data t st).2 ++
      (processAgain is lookback data ts (processTarget is lookback data t st).1).2) = _
  rw [hrest, List.append_nil]

end

/-! ## The two stores -/

section

variable {db : Db} {org : OrgId}

theorem pg_opens {new : NewOpenIncident} (now : Time) (hempty : db.openForPairs org new.targetId = [])
    (hstatus : new.statusAtStart ≠ .up) :
    ∃ id db', db.insertOpen now org new = (.ok (some id), db') ∧
      ∃ inc, db'.openForPairs org new.targetId = [inc] := by
  have hclear : db.openConflict org db.nextId (some new.targetId) .monitor = false := by
    unfold Db.openConflict
    refine List.any_eq_false.mpr fun i hi hconflict => ?_
    unfold Db.openForPairs at hempty
    rw [List.map_eq_nil_iff, List.filter_eq_nil_iff] at hempty
    have hnot := hempty i hi
    simp only [Bool.and_eq_true, beq_iff_eq] at hconflict hnot
    simp_all
  refine ⟨db.nextId, { db with
    nextId := db.nextId + 1
    incidents := db.incidents ++ [db.openedRow now org new] }, ?_,
    ⟨db.nextId, new.targetId, new.startedAt, none⟩, ?_⟩
  · unfold Db.insertOpen
    rw [if_neg hstatus, hclear, if_neg Bool.false_ne_true]
    rfl
  · unfold Db.openForPairs at hempty ⊢
    rw [List.filter_append, List.map_append, hempty]
    simp [Db.openedRow]

theorem pg_closes {targetId : Uuid} {inc : OpenIncident} (now endedAt : Time) (h : PgInv db)
    (hopen : db.openForPairs org targetId = [inc]) :
    ∃ db', db.close now org inc.id endedAt = (true, db') ∧ db'.openForPairs org targetId = [] := by
  have hmem : inc ∈ db.openForPairs org targetId := by
    rw [hopen]
    exact List.mem_cons_self
  obtain ⟨cur, hcur, rfl⟩ := List.mem_map.mp hmem
  obtain ⟨hcur, hp⟩ := List.mem_filter.mp hcur
  simp only [Bool.and_eq_true, beq_iff_eq, Option.isNone_iff_eq_none] at hp
  obtain ⟨⟨⟨horg, -⟩, hended⟩, -⟩ := hp
  have hfound : db.incident org cur.id = some cur := by
    rw [← horg]
    exact h.1.incident_eq hcur
  obtain ⟨db', hclose⟩ : ∃ db', db.close now org cur.id endedAt = (true, db') := by
    unfold Db.close
    rw [hfound]
    dsimp only
    rw [hended, Option.isSome_none, if_neg Bool.false_ne_true]
    exact ⟨_, rfl⟩
  refine ⟨db', hclose, ?_⟩
  obtain ⟨-, hrows⟩ := pg_close_rows h hclose
  unfold Db.openForPairs
  rw [List.map_eq_nil_iff, List.filter_eq_nil_iff, hrows]
  intro i' hi' hp
  obtain ⟨i, hi, rfl⟩ := List.mem_map.mp hi'
  split at hp
  · simp [Db.closedRow] at hp
  · next hne =>
    -- another row would be a second open incident
    have hother : (⟨i.id, targetId, i.startedAt, none⟩ : OpenIncident) ∈ db.openForPairs org targetId :=
      List.mem_map.mpr ⟨i, List.mem_filter.mpr ⟨hi, hp⟩, rfl⟩
    rw [hopen, List.mem_singleton] at hother
    exact hne (congrArg OpenIncident.id hother)

theorem pg_steady (lower : String → String) : SteadyStore (pgStore lower) PgInv where
  lawful := pg_lawful lower
  whole := by
    intro db org targetId inc hinc
    obtain ⟨i, -, rfl⟩ := List.mem_map.mp hinc
    rfl
  opens now _ := pg_opens now
  closes := pg_closes

end

section

variable {m : InMemoryIncidentStore}

theorem mem_opens {new : NewOpenIncident} (hempty : m.openForPairs new.targetId = []) :
    ∃ id m', m.insertOpen new = (some id, m') ∧ ∃ inc, m'.openForPairs new.targetId = [inc] := by
  unfold InMemoryIncidentStore.openForPairs at hempty
  have hclear : ¬ (m.rows.any fun i => i.targetId == new.targetId && i.endedAt.isNone) = true := by
    rw [List.map_eq_nil_iff, List.filter_eq_nil_iff] at hempty
    intro hany
    obtain ⟨i, hi, hp⟩ := List.any_eq_true.mp hany
    exact hempty i hi hp
  refine ⟨m.nextId, (m.insertOpen new).2, ?_, ⟨m.nextId, new.targetId, new.startedAt, none⟩, ?_⟩
  · unfold InMemoryIncidentStore.insertOpen
    rw [if_neg hclear]
  · unfold InMemoryIncidentStore.insertOpen InMemoryIncidentStore.openForPairs
    rw [if_neg hclear]
    dsimp only
    rw [List.filter_append, List.map_append, hempty]
    simp

theorem mem_closes {targetId : Uuid} {inc : OpenIncident} (endedAt : Time)
    (hopen : m.openForPairs targetId = [inc]) :
    ∃ m', m.close inc.id endedAt = (true, m') ∧ m'.openForPairs targetId = [] := by
  have hmem : inc ∈ m.openForPairs targetId := by
    rw [hopen]
    exact List.mem_cons_self
  obtain ⟨cur, hcur, rfl⟩ := List.mem_map.mp hmem
  obtain ⟨hcur, hp⟩ := List.mem_filter.mp hcur
  rw [Bool.and_eq_true] at hp
  have hhit : (m.rows.any fun i => i.id == cur.id && i.endedAt.isNone) = true :=
    List.any_eq_true.mpr ⟨cur, hcur, by rw [beq_self_eq_true, hp.2]; rfl⟩
  refine ⟨(m.close cur.id endedAt).2, ?_, ?_⟩
  · unfold InMemoryIncidentStore.close
    dsimp only
    rw [if_pos hhit]
  · unfold InMemoryIncidentStore.close InMemoryIncidentStore.openForPairs
    dsimp only
    rw [if_pos hhit, List.map_eq_nil_iff, List.filter_eq_nil_iff]
    intro i' hi' hp'
    obtain ⟨i, hi, rfl⟩ := List.mem_map.mp hi'
    split at hp'
    · simp at hp'
    · next hmiss =>
      have hother : (⟨i.id, i.targetId, i.startedAt, none⟩ : OpenIncident) ∈ m.openForPairs targetId :=
        List.mem_map.mpr ⟨i, List.mem_filter.mpr ⟨hi, hp'⟩, rfl⟩
      rw [hopen, List.mem_singleton] at hother
      rw [Bool.and_eq_true] at hp'
      have hid : i.id = cur.id := congrArg OpenIncident.id hother
      refine hmiss ?_
      show (i.id == cur.id && i.endedAt.isNone) = true
      rw [hid, beq_self_eq_true, hp'.2]
      rfl

theorem mem_steady : SteadyStore memStore MemInv where
  lawful := mem_lawful
  whole := by
    intro m org targetId inc hinc
    obtain ⟨i, -, rfl⟩ := List.mem_map.mp hinc
    rfl
  opens := by
    intro m org new now _ hempty _
    obtain ⟨id, m', hinsert, hinc⟩ := mem_opens hempty
    refine ⟨id, m', ?_, hinc⟩
    show (Except.ok (m.insertOpen new).1, (m.insertOpen new).2) = _
    rw [hinsert]
  closes _ endedAt _ := mem_closes endedAt

end

/-- What is promised of a store: the decision, applied, leaves nothing to decide on the same
results, and any number of runs on the same data is as good as one. -/
def Steady {σ ο : Type} (is : IncidentStore σ ο) (st : σ) : Prop :=
  (∀ now org targetId groups confirmations quorum,
    decideMulti targetId (is.openFor (applyActions is now org (decideMulti targetId
      (is.openFor st org targetId) groups confirmations quorum) st).1 org targetId) groups
        confirmations quorum = []) ∧
  ∀ lookback data t ts,
    processAgain is lookback data (t :: ts) st = processTarget is lookback data t st

theorem SteadyStore.steady {σ ο : Type} {is : IncidentStore σ ο} {Inv : σ → Prop} {st : σ}
    (h : SteadyStore is Inv) (hinv : Inv st) : Steady is st :=
  ⟨fun now org targetId groups confirmations quorum =>
    (decide_again h hinv now org targetId groups confirmations quorum).2,
    fun _ data t ts => processAgain_once h hinv data t ts⟩

/-- **No flapping on unchanged data**, on either store, where the ids are unique and a monitor has
at most one open incident. -/
theorem writer_steady (lower : String → String) :
    (∀ db, PgInv db → Steady (pgStore lower) db) ∧ ∀ m, MemInv m → Steady memStore m :=
  ⟨fun _ h => (pg_steady lower).steady h, fun _ h => mem_steady.steady h⟩

namespace Steady.Sample

open Decide.Sample

/-- The monitor is down twice in a row. -/
def data : TargetData where
  org := 1
  target := target
  tagged := [("eu", result 60 .down), ("eu", result 120 .down)]
  now := seconds 130

/-- An incident of the monitor that began at 10 s and is open. -/
def row (id : Uuid) : MemIncident := ⟨id, 7, seconds 10, none, .down, 2, none, [], []⟩

def two : InMemoryIncidentStore := ⟨2, [row 0, row 1], 2, 0⟩

end Steady.Sample

/-- Three runs on a monitor that is down open one incident, with one signal. -/
theorem writer_steady_opens_once :
    processAgain memStore 900 Steady.Sample.data [1, 2, 3] .empty =
      processTarget memStore 900 Steady.Sample.data 1 .empty ∧
    (processTarget memStore 900 Steady.Sample.data 1 .empty).2 = [⟨1, 0, .opened⟩] :=
  ⟨((writer_steady id).2 .empty memInv_empty).2 900 Steady.Sample.data 1 [2, 3], by decide +kernel⟩

/-- With two open incidents of a monitor that recovered, each decision closes one. -/
theorem two_open_close_in_turn : ¬ ∀ m : InMemoryIncidentStore, Steady memStore m := by
  intro h
  have hnone := (h Steady.Sample.two).1 0 1 7
    [("eu", [Decide.Sample.result 60 .up, Decide.Sample.result 120 .up])] 2 1
  exact absurd hnone (by decide +kernel)

end Writer

end Uptimepage
