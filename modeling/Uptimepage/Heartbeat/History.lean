import Uptimepage.Heartbeat.Merge

/-!
# Ping state as a fold of history

A target's row and the cache of one node, replayed from the pings, re-arms, refreshes and
restarts since the row was inserted.
-/

namespace Uptimepage.Heartbeat

open Crdt PingState Targets

/-! ## Histories -/

inductive Event
  /-- Accepted by this node, or by another one. -/
  | ping (signal : PingSignal) (exitCode : Option UInt8) (here : Bool)
  | rearm
  /-- The refresh tick; `others` are the other rows of the snapshot. -/
  | refresh (others : States)
  | restart

namespace Event

def isStart : Event → Bool
  | .ping .start _ _ => true
  | _ => false

def isFinish : Event → Bool
  | .ping signal _ _ => signal.isFinish
  | _ => false

/-- A success or a re-arm. -/
def renews : Event → Bool
  | .ping .success _ _ | .rearm => true
  | _ => false

/-- A finish or a re-arm. -/
def closes : Event → Bool
  | .rearm => true
  | e => e.isFinish

/-- The node reads the row. -/
def syncs : Event → Bool
  | .ping _ _ here => here
  | .refresh _ => true
  | _ => false

end Event

/-- Newest first. -/
abbrev History := List (Time × Event)

namespace History

def latest (created : Time) : History → Time
  | [] => created
  | e :: _ => e.1

/-- Times increase strictly. -/
def Chronological (created : Time) : History → Prop
  | [] => True
  | e :: h => latest created h < e.1 ∧ Chronological created h

/-- What came after the last event with `p`. -/
def since (p : Event → Bool) (h : History) : History := h.takeWhile fun e => !p e.2

def lastFinish (h : History) : Option (Time × Event) :=
  (h.since Event.renews).find? fun e => e.2.isFinish

def failureOf : Time × Event → Option Failure
  | (t, .ping .fail code _) => some ⟨t, code⟩
  | _ => none

def openStart (h : History) : Option Time :=
  ((h.since Event.closes).find? fun e => e.2.isStart).map Prod.fst

/-- The history up to when the node last read the row; a restart forgets it. -/
def read : History → Option History
  | [] => none
  | e :: h =>
    match e.2 with
    | .restart => none
    | event => if event.syncs then some (e :: h) else read h

end History

/-! ## The row and the cache -/

structure Node where
  row : HeartbeatRow
  states : States

def Node.step (id : Uuid) (node : Node) (now : Time) : Event → Node
  | .ping signal code here =>
    let row := node.row.recordSignal now signal code
    let state := (node.row.accepted row signal).state
    { row, states := if here then node.states.record id state else node.states }
  | .rearm => { node with row := node.row.rearm now }
  | .refresh others =>
    { node with states := node.states.syncStates (Function.update others id node.row.snapshot) }
  | .restart => { node with states := fun _ => none }

def replay (id : Uuid) (created : Time) : History → Node
  | [] => ⟨.inserted created, fun _ => none⟩
  | e :: h => (replay id created h).step id e.1 e.2

/-! ## What a write does to the state of the row -/

/-- No field is later than `t`. -/
structure PingState.Dated (state : PingState) (t : Time) : Prop where
  success : state.successAt ≤ t
  start : ∀ s ∈ state.startAt, s ≤ t
  fail : ∀ f ∈ state.fail, f.time ≤ t

theorem PingState.Dated.mono {state : PingState} {t t' : Time} (h : state.Dated t) (ht : t ≤ t') :
    state.Dated t' :=
  ⟨h.success.trans ht, fun s hs => (h.start s hs).trans ht, fun f hf => (h.fail f hf).trans ht⟩

namespace HeartbeatRow
variable {row : HeartbeatRow} {t now : Time} (code : Option UInt8)

theorem state_success (hd : row.state.Dated t) (ht : t < now) :
    (row.recordSignal now .success code).state = { row.state with successAt := now } := by
  have harmed := (successAt_le_iff.1 hd.success).1
  rw [state_success_max]
  split
  · rw [max_self]
  · rw [max_eq_left (harmed.trans ht.le)]

theorem state_rearm (hd : row.state.Dated t) (ht : t < now) :
    (row.rearm now).state = { row.state with successAt := now } := by
  rw [state_rearm_max]
  cases hp : row.lastPingAt with
  | none => rfl
  | some p =>
    have hle : p ≤ t := ((successAt_le_iff.1 hd.success).2 p hp)
    show ({ row.state with successAt := max p now } : PingState) = _
    rw [max_eq_right (hle.trans ht.le)]

end HeartbeatRow

/-! ## One event -/

/-- What an event makes of the row's state.  The first start arms the monitor. -/
def Event.on (pending : Bool) (state : PingState) (now : Time) : Event → PingState
  | .ping .start _ _ =>
    { state with successAt := if pending then now else state.successAt, startAt := some now }
  | .ping .success _ _ | .rearm => { state with successAt := now }
  | .ping .fail code _ => { state with fail := some ⟨now, code⟩ }
  | .refresh _ | .restart => state

section Step
variable {id : Uuid} {node : Node} {t now : Time} (e : Event)

theorem state_step (hw : node.row.Wired) (hd : node.row.state.Dated t) (ht : t < now) :
    (node.step id now e).row.state = e.on node.row.firstPingAt.isNone node.row.state now := by
  cases e with
  | ping signal code here =>
    cases signal with
    | start =>
      refine (HeartbeatRow.state_start hw).trans ?_
      simp [Event.on]
    | success => exact HeartbeatRow.state_success code hd ht
    | fail => exact HeartbeatRow.state_fail
  | rearm => exact HeartbeatRow.state_rearm hd ht
  | refresh others => rfl
  | restart => rfl

theorem wired_step (hw : node.row.Wired) : (node.step id now e).row.Wired := by
  cases e with
  | ping signal code here => exact HeartbeatRow.wired_recordSignal _ _ _ _
  | rearm => exact hw
  | refresh others => exact hw
  | restart => exact hw

end Step

section On
variable {pending : Bool} {state : PingState} {t now : Time} (e : Event)

theorem PingState.Dated.on (hd : state.Dated t) (ht : t < now) :
    (e.on pending state now).Dated now := by
  have hnow := hd.mono ht.le
  cases e with
  | ping signal code here =>
    cases signal with
    | start =>
      refine ⟨?_, ?_, hnow.fail⟩
      · show (if pending then now else state.successAt) ≤ now
        split
        · exact le_rfl
        · exact hnow.success
      · intro s hs
        cases hs
        exact le_rfl
    | success => exact ⟨le_rfl, hnow.start, hnow.fail⟩
    | fail =>
      refine ⟨hnow.success, hnow.start, ?_⟩
      intro f hf
      cases hf
      exact le_rfl
  | rearm => exact ⟨le_rfl, hnow.start, hnow.fail⟩
  | refresh others => exact hnow
  | restart => exact hnow

theorem failing_of_renewed (hd : state.Dated t) (ht : t < now) :
    ({ state with successAt := now } : PingState).failing = none := by
  apply Option.filter_eq_none_iff.mpr
  intro f hf
  have hle : f.time ≤ now := (hd.fail f hf).trans ht.le
  simpa using hle

theorem failing_on (hd : state.Dated t) (ht : t < now) (hp : pending = true → state.fail = none) :
    (e.on pending state now).failing =
      if e.renews then none
      else if e.isFinish then History.failureOf (now, e) else state.failing := by
  cases e with
  | ping signal code here =>
    cases signal with
    | start =>
      cases pending with
      | false => rfl
      | true =>
        have hfail := hp rfl
        simp [Event.on, failing, hfail, Event.renews, Event.isFinish, PingSignal.isFinish]
    | success => exact failing_of_renewed hd ht
    | fail =>
      have hlt : state.successAt < now := lt_of_le_of_lt hd.success ht
      simp [Event.on, failing, Option.filter, hlt, Event.renews, Event.isFinish,
        PingSignal.isFinish, History.failureOf]
  | rearm => exact failing_of_renewed hd ht
  | refresh others => rfl
  | restart => rfl

theorem runOpenSince_of_renewed (hd : state.Dated t) (ht : t < now) :
    ({ state with successAt := now } : PingState).runOpenSince = none := by
  apply Option.filter_eq_none_iff.mpr
  intro s hs
  have hlt : s < now := lt_of_le_of_lt (hd.start s hs) ht
  have hsucc : decide (now ≤ s) = false := decide_eq_false (not_le.mpr hlt)
  simp [hsucc]

theorem runOpenSince_on (hd : state.Dated t) (ht : t < now) :
    (e.on pending state now).runOpenSince =
      if e.closes then none else if e.isStart then some now else state.runOpenSince := by
  cases e with
  | ping signal code here =>
    cases signal with
    | start =>
      have hsucc : (if pending then now else state.successAt) ≤ now := by
        split
        · exact le_rfl
        · exact hd.success.trans ht.le
      have hfail : (state.fail.all fun f => decide (f.time < now)) = true := by
        rw [Option.all_eq_true]
        intro f hf
        exact decide_eq_true (lt_of_le_of_lt (hd.fail f hf) ht)
      simp [Event.on, runOpenSince, Option.filter, hsucc, hfail, Event.closes, Event.isFinish,
        PingSignal.isFinish, Event.isStart]
    | success => exact runOpenSince_of_renewed hd ht
    | fail =>
      apply Option.filter_eq_none_iff.mpr
      intro s hs
      have hlt : s < now := lt_of_le_of_lt (hd.start s hs) ht
      simp [Event.on, hlt.le]
  | rearm => exact runOpenSince_of_renewed hd ht
  | refresh others => rfl
  | restart => rfl

theorem older_on (hd : state.Dated t) (ht : t < now) :
    Older state (e.on pending state now) := by
  have hsucc : state.successAt ≤ now := hd.success.trans ht.le
  cases e with
  | ping signal code here =>
    cases signal with
    | start =>
      rw [older_iff]
      refine ⟨⟨?_, stamp_le_iff.2 fun s hs => (hd.start s hs).trans ht.le, le_rfl⟩, fun _ => rfl⟩
      show state.successAt ≤ if pending then now else state.successAt
      split
      · exact hsucc
      · exact le_rfl
    | success => exact older_successAt.2 hsucc
    | fail =>
      apply older_fail.2
      exact .inl (failStamp_lt_of_forall fun f hf => lt_of_le_of_lt (hd.fail f hf) ht)
  | rearm => exact older_successAt.2 hsucc
  | refresh others => exact .refl state
  | restart => exact .refl state

end On

/-! ## The events of a history -/

namespace History
variable (e : Time × Event) (h : History)

theorem since_cons (p : Event → Bool) :
    since p (e :: h) = if p e.2 then [] else e :: since p h := by
  unfold since
  cases hp : p e.2 <;> simp [hp]

theorem lastFinish_cons :
    lastFinish (e :: h) =
      if e.2.renews then none else if e.2.isFinish then some e else lastFinish h := by
  unfold lastFinish
  rw [since_cons]
  split
  · rfl
  · rw [List.find?_cons]
    cases he : e.2.isFinish <;> rfl

theorem openStart_cons :
    openStart (e :: h) =
      if e.2.closes then none else if e.2.isStart then some e.1 else openStart h := by
  unfold openStart
  rw [since_cons]
  split
  · rfl
  · rw [List.find?_cons]
    cases he : e.2.isStart <;> rfl

end History

open History

section Replay
variable {id : Uuid} {created : Time} {h : History}

theorem replay_wired : (replay id created h).row.Wired := by
  induction h with
  | nil => exact fun _ => ⟨rfl, rfl, rfl⟩
  | cons e h ih => exact wired_step e.2 ih

theorem replay_dated (hc : h.Chronological created) :
    (replay id created h).row.state.Dated (h.latest created) := by
  induction h with
  | nil => exact ⟨le_rfl, nofun, nofun⟩
  | cons e h ih =>
    have hd := ih hc.2
    show ((replay id created h).step id e.1 e.2).row.state.Dated e.1
    rw [state_step e.2 replay_wired hd hc.1]
    exact hd.on e.2 hc.1

theorem replay_cons {e : Time × Event} (hc : Chronological created (e :: h)) :
    (replay id created (e :: h)).row.state =
      e.2.on (replay id created h).row.firstPingAt.isNone (replay id created h).row.state e.1 :=
  state_step e.2 replay_wired (replay_dated hc.2) hc.1

theorem fail_of_pending (hp : (replay id created h).row.firstPingAt.isNone = true) :
    (replay id created h).row.state.fail = none := by
  have hfail := (replay_wired (Option.isNone_iff_eq_none.mp hp)).2.2
  simp [HeartbeatRow.state, pingStateOf, hfail]

theorem replay_failing (hc : h.Chronological created) :
    (replay id created h).row.state.failing = h.lastFinish.bind failureOf := by
  induction h with
  | nil => rfl
  | cons e h ih =>
    rw [replay_cons hc, failing_on e.2 (replay_dated hc.2) hc.1 fail_of_pending, lastFinish_cons,
      ih hc.2]
    by_cases hr : e.2.renews = true
    · rw [if_pos hr, if_pos hr]
      rfl
    · rw [if_neg hr, if_neg hr]
      by_cases hf : e.2.isFinish = true
      · rw [if_pos hf, if_pos hf]
        rfl
      · rw [if_neg hf, if_neg hf]

theorem replay_runOpenSince (hc : h.Chronological created) :
    (replay id created h).row.state.runOpenSince = h.openStart := by
  induction h with
  | nil => rfl
  | cons e h ih =>
    rw [replay_cons hc, runOpenSince_on e.2 (replay_dated hc.2) hc.1, openStart_cons, ih hc.2]

theorem replay_older (id : Uuid) {e : Time × Event} (hc : Chronological created (e :: h)) :
    Older (replay id created h).row.state (replay id created (e :: h)).row.state := by
  rw [replay_cons hc]
  exact older_on e.2 (replay_dated hc.2) hc.1

theorem read_older (hc : h.Chronological created) {h' : History} (hr : h.read = some h') :
    Older (replay id created h').row.state (replay id created h).row.state := by
  induction h with
  | nil => cases hr
  | cons e h ih =>
    have hnext := replay_older id hc
    unfold History.read at hr
    split at hr
    · cases hr
    · split at hr
      · cases hr
        exact .refl _
      · exact (ih hc.2 hr).trans hnext

theorem recorded_older {cached : Option PingState} {state : PingState}
    (h : ∀ c ∈ cached, Older c state) : recorded cached state = state := by
  cases cached with
  | none => rfl
  | some c => exact h c rfl

theorem replay_states (id : Uuid) (hc : h.Chronological created) :
    (replay id created h).states id = h.read.map fun h' => (replay id created h').row.state := by
  induction h with
  | nil => rfl
  | cons e h ih =>
    have hstates := ih hc.2
    have holder : ∀ c ∈ (replay id created h).states id,
        Older c (replay id created h).row.state := by
      rw [hstates]
      intro c hmem
      obtain ⟨h', hr, rfl⟩ := Option.map_eq_some_iff.mp hmem
      exact read_older hc.2 hr
    have hnext := replay_older id hc
    obtain ⟨now, event⟩ := e
    cases event with
    | ping signal code here =>
      cases here with
      | false => exact hstates
      | true =>
        have hrec := recorded_older fun c hmem => (holder c hmem).trans hnext
        show States.record _ id _ id = _
        unfold States.record
        rw [Function.update_self]
        exact congrArg some hrec
    | rearm => exact hstates
    | refresh others =>
      show States.syncStates _ _ id = _
      unfold States.syncStates States.retain
      rw [Function.update_self, HeartbeatRow.snapshot_eq]
      exact congrArg some (recorded_older holder)
    | restart => rfl

theorem replay_runMs (hc : h.Chronological created) {now : Time} (hnow : h.latest created < now)
    (signal : PingSignal) (code : Option UInt8) :
    let row := (replay id created h).row
    (row.accepted (row.recordSignal now signal code) signal).runMs =
      if signal.isFinish then h.openStart.map fun s => min ((now - s) / 1000) u32Max else none := by
  intro row
  have hopen : row.monitor.pingState.runOpenSince = h.openStart := replay_runOpenSince hc
  have hms (s : Time) (hs : h.openStart = some s) :
      max 0 (min (numMilliseconds (now - s)) u32Max) = min ((now - s) / 1000) u32Max := by
    have hmem : row.state.startAt = some s := by
      rw [← hopen] at hs
      exact (Option.filter_eq_some_iff.mp hs).1
    have hle : s ≤ now := ((replay_dated hc).start s hmem).trans hnow.le
    have hnonneg : 0 ≤ now - s := Int.sub_nonneg_of_le hle
    have hdiv : 0 ≤ (now - s) / 1000 := Int.ediv_nonneg hnonneg (by decide)
    unfold numMilliseconds
    rw [Int.tdiv_eq_ediv_of_nonneg hnonneg, max_eq_right]
    exact le_min hdiv (by decide)
  rw [HeartbeatRow.accepted_recordSignal]
  show runMsOf row.monitor.pingState signal now = _
  unfold runMsOf
  rw [hopen]
  split
  · cases hs : h.openStart with
    | none => rfl
    | some s => exact congrArg some (hms s hs)
  · rfl

end Replay

/-! ## What the row and the cache say -/

theorem ping_state_of_history (id : Uuid) (created : Time) (h : History)
    (hc : h.Chronological created) :
    let node := replay id created h
    node.row.state.failing = h.lastFinish.bind failureOf ∧
    node.row.state.runOpenSince = h.openStart ∧
    (∀ now signal code, h.latest created < now →
      (node.row.accepted (node.row.recordSignal now signal code) signal).runMs =
        if signal.isFinish then h.openStart.map fun s => min ((now - s) / 1000) u32Max
        else none) ∧
    (∀ now signal code,
      node.row.monitor.recordSignal now signal code =
        ((node.row.recordSignal now signal code).monitor,
          node.row.accepted (node.row.recordSignal now signal code) signal)) ∧
    node.states id = h.read.map (fun h' => (replay id created h').row.state) ∧
    ∀ e h', h = e :: h' → e.2.syncs = true → ∀ now orgId check,
      executeHeartbeatCheck now id orgId check node.states =
        executeHeartbeatCheck now id orgId check fun _ => some node.row.state := by
  refine ⟨replay_failing hc, replay_runOpenSince hc, ?_, ?_, replay_states id hc, ?_⟩
  · intro now signal code hnow
    exact replay_runMs hc hnow signal code
  · intro now signal code
    rw [HeartbeatRow.monitor_recordSignal, HeartbeatRow.accepted_recordSignal]
  · intro e h' heq hsync now orgId check
    have hread : h.read = some h := by
      subst heq
      unfold History.read
      split
      · next hrestart =>
        rw [hrestart] at hsync
        cases hsync
      · rw [if_pos hsync]
    have hstates := replay_states id hc
    rw [hread] at hstates
    unfold executeHeartbeatCheck
    rw [hstates]
    rfl

namespace One

def check : HeartbeatCheck := ⟨60000, 0, none⟩

/-- A job fails, and its target is paused and resumed before the node refreshes. -/
def resumed : History := [(2, .rearm), (1, .ping .fail (some 3) true)]

/-- A run of fifty days. -/
def long : History := [(1, .ping .start none true)]

def fiftyDays : Time := 50 * 24 * 3600 * 1000000

end One

theorem ping_state_of_history_one :
    let node := replay 7 0 One.resumed
    node.row.state.failing = One.resumed.lastFinish.bind failureOf ∧ node.row.state.failing = none :=
  ⟨(ping_state_of_history 7 0 One.resumed (by unfold One.resumed; simp [Chronological, latest])).1,
    by decide⟩

/-- The cache still shows a failure that a re-arm cleared, and a run of more than `u32::MAX`
milliseconds is recorded as one of that many. -/
theorem cache_behind_rearm :
    let node := replay 7 0 One.resumed
    (executeHeartbeatCheck 3 7 1 One.check node.states).status = .down ∧
    (executeHeartbeatCheck 3 7 1 One.check fun _ => some node.row.state).status = .up ∧
    let row := (replay 7 0 One.long).row
    (row.accepted (row.recordSignal (1 + One.fiftyDays) .success none) .success).runMs =
      some u32Max ∧ u32Max < One.fiftyDays / 1000 := by
  decide

end Uptimepage.Heartbeat
