import Uptimepage.Domain.CheckResult
import Uptimepage.Targets.Check

/-!
# Ping state

The state a heartbeat check is judged on: `PingState` and its verdict of
`worker/heartbeat.rs`, the columns of `heartbeat_monitors` and the two stores that write
them, of `storage/heartbeats.rs`, and the two ways a row is read into a `PingState`, in the
store and in `storage/admin.rs`.
-/

namespace Uptimepage.Heartbeat

open Targets (HeartbeatCheck)

inductive PingSignal
  | start
  | success
  | fail
deriving DecidableEq

/-- Closes an open `start`. -/
def PingSignal.isFinish : PingSignal → Bool
  | .start => false
  | .success | .fail => true

/-! ## `PingState` -/

structure Failure where
  time : Time
  exitCode : Option UInt8
deriving DecidableEq

structure PingState where
  successAt : Time
  startAt : Option Time
  fail : Option Failure
deriving DecidableEq

/-- `a > b` of two `Option`s: `None` is below every `Some`. -/
def newer : Option Time → Option Time → Bool
  | some a, some b => decide (b < a)
  | some _, none => true
  | none, _ => false

namespace PingState

def failing (state : PingState) : Option Failure :=
  state.fail.filter fun f => decide (state.successAt < f.time)

def runOpenSince (state : PingState) : Option Time :=
  state.startAt.filter fun s =>
    decide (state.successAt ≤ s) && state.fail.all fun f => decide (f.time < s)

def failAt (state : PingState) : Option Time := state.fail.map Failure.time

def mergeNewer (cur other : PingState) : PingState where
  successAt := if cur.successAt < other.successAt then other.successAt else cur.successAt
  startAt := if newer other.startAt cur.startAt then other.startAt else cur.startAt
  fail := if newer other.failAt cur.failAt then other.fail else cur.fail

end PingState

def pingStateOf (armedAt : Time) (lastPingAt lastStartAt lastFailAt : Option Time)
    (lastExitCode : Option UInt8) : PingState where
  successAt :=
    match lastPingAt with
    | none => armedAt
    | some p => max p armedAt
  startAt := lastStartAt
  fail := lastFailAt.map fun t => ⟨t, lastExitCode⟩

/-- `u8::try_from`: what is out of range is no code. -/
def exitCodeOf (stored : Option Int) : Option UInt8 :=
  stored.bind fun c => if 0 ≤ c ∧ c ≤ 255 then some (UInt8.ofNat c.toNat) else none

/-- `c as u8`. -/
def asU8 (c : Int) : UInt8 := UInt8.ofNat (c % 256).toNat

def u32Max : Int := 4294967295

/-- `num_milliseconds` of a difference of two timestamps. -/
def numMilliseconds (d : Int) : Int := Int.tdiv d 1000

def runMsOf (prev : PingState) (signal : PingSignal) (time : Time) : Option Int :=
  if signal.isFinish then
    prev.runOpenSince.map fun started => max 0 (min (numMilliseconds (time - started)) u32Max)
  else none

/-- `org_id`, `target_id` and `enabled`, which a store passes on, are left out. -/
structure PingAccepted where
  time : Time
  state : PingState
  runMs : Option Int
  first : Bool
deriving DecidableEq

/-! ## The row -/

/-- A row of `heartbeat_monitors`. -/
structure HeartbeatRow where
  armedAt : Time
  firstPingAt : Option Time
  lastPingAt : Option Time
  lastStartAt : Option Time
  lastFailAt : Option Time
  lastExitCode : Option Int
  /-- `heartbeat_monitors_exit_code_range`. -/
  exitCodeRange : ∀ c ∈ lastExitCode, 0 ≤ c ∧ c ≤ 255
deriving DecidableEq

namespace HeartbeatRow

/-- The row `ensure` inserts. -/
def inserted (now : Time) : HeartbeatRow := ⟨now, none, none, none, none, none, nofun⟩

def state (row : HeartbeatRow) : PingState :=
  pingStateOf row.armedAt row.lastPingAt row.lastStartAt row.lastFailAt
    (exitCodeOf row.lastExitCode)

/-- `list_heartbeat_state`'s reading of the row. -/
def snapshot (row : HeartbeatRow) : PingState :=
  pingStateOf row.armedAt row.lastPingAt row.lastStartAt row.lastFailAt
    (row.lastExitCode.map asU8)

/-- The `UPDATE` of `record_signal_by_token`. -/
def recordSignal (row : HeartbeatRow) (now : Time) (signal : PingSignal)
    (exitCode : Option UInt8) : HeartbeatRow where
  armedAt := if row.firstPingAt = none ∧ signal ≠ .fail then now else row.armedAt
  lastPingAt := if signal = .success then some now else row.lastPingAt
  lastStartAt := if signal = .start then some now else row.lastStartAt
  lastFailAt := if signal = .fail then some now else row.lastFailAt
  lastExitCode :=
    if signal = .fail then exitCode.map fun c => (c.toNat : Int) else row.lastExitCode
  firstPingAt := some (row.firstPingAt.getD now)
  exitCodeRange := by
    intro c hc
    split at hc
    · obtain ⟨code, -, rfl⟩ := Option.map_eq_some_iff.mp hc
      have hlt : code.toNat < 256 := code.toNat_lt
      omega
    · exact row.exitCodeRange c hc

/-- `armed_at = now()`: a disabled target is enabled, or its organisation restored. -/
def rearm (row : HeartbeatRow) (now : Time) : HeartbeatRow := { row with armedAt := now }

/-- `into_accepted`, of the row before and the row after. -/
def accepted (prev row : HeartbeatRow) (signal : PingSignal) : PingAccepted :=
  let time := (match signal with
    | .start => row.lastStartAt
    | .success => row.lastPingAt
    | .fail => row.lastFailAt).getD row.state.successAt
  let before :=
    pingStateOf prev.armedAt prev.lastPingAt prev.lastStartAt prev.lastFailAt none
  { time, state := row.state, runMs := runMsOf before signal time, first := prev.firstPingAt.isNone }

end HeartbeatRow

/-! ## The store without a database -/

structure HeartbeatMonitor where
  armedAt : Time
  firstPingAt : Option Time
  lastPingAt : Option Time
  lastStartAt : Option Time
  lastFailAt : Option Time
  lastExitCode : Option UInt8
deriving DecidableEq

namespace HeartbeatMonitor

def isPending (monitor : HeartbeatMonitor) : Bool := monitor.firstPingAt.isNone

def pingState (monitor : HeartbeatMonitor) : PingState :=
  pingStateOf monitor.armedAt monitor.lastPingAt monitor.lastStartAt monitor.lastFailAt
    monitor.lastExitCode

def recordSignal (monitor : HeartbeatMonitor) (now : Time) (signal : PingSignal)
    (exitCode : Option UInt8) : HeartbeatMonitor × PingAccepted :=
  let prev := monitor.pingState
  let first := monitor.isPending
  let armed := if first && signal != .fail then { monitor with armedAt := now } else monitor
  let wired := { armed with firstPingAt := armed.firstPingAt.or (some now) }
  let after :=
    match signal with
    | .start => { wired with lastStartAt := some now }
    | .success => { wired with lastPingAt := some now }
    | .fail => { wired with lastFailAt := some now, lastExitCode := exitCode }
  (after, { time := now, state := after.pingState, runMs := runMsOf prev signal now, first })

end HeartbeatMonitor

def HeartbeatRow.monitor (row : HeartbeatRow) : HeartbeatMonitor :=
  ⟨row.armedAt, row.firstPingAt, row.lastPingAt, row.lastStartAt, row.lastFailAt,
    exitCodeOf row.lastExitCode⟩

/-! ## The verdict -/

def failureMessage : Option UInt8 → String
  | some code => s!"job reported failure (exit {code})"
  | none => "job reported failure"

/-- A duration in milliseconds; `chrono` holds at most `i64::MAX` of them. -/
def toChrono (d : Nat) : Int := min (d : Int) 9223372036854775807 * 1000

def numSeconds (d : Int) : Int := Int.tdiv d 1000000

def verdict (now : Time) (state : PingState) (check : HeartbeatCheck) : Option String :=
  match state.failing with
  | some failure => some (failureMessage failure.exitCode)
  | none =>
    let stuck : Option String :=
      match state.runOpenSince, check.maxRuntime with
      | some started, some max_ =>
        let running := now - started
        if toChrono max_ < running then
          some (s!"job started {max (numSeconds running) 0}s ago and has not finished, " ++
            s!"past the {max_ / 1000}s max runtime")
        else none
      | _, _ => none
    match stuck with
    | some message => some message
    | none =>
      let age := now - state.successAt
      if toChrono (check.period + check.grace) < age then
        some (s!"no ping for {max (numSeconds age) 0}s, expected every {check.period / 1000}s " ++
          s!"(+{check.grace / 1000}s grace)")
      else none

/-! ## The cache -/

/-- The map of `HeartbeatRuntime`. -/
abbrev States := Uuid → Option PingState

/-- What `record` leaves in an entry. -/
def recorded : Option PingState → PingState → PingState
  | some cur, state => cur.mergeNewer state
  | none, state => state

def States.record (states : States) (id : Uuid) (state : PingState) : States :=
  Function.update states id (some (recorded (states id) state))

def States.retain (states fresh : States) : States :=
  fun id => if (fresh id).isSome then states id else none

/-- Each entry of `fresh` is recorded after the entries it lacks are dropped. -/
def States.syncStates (states fresh : States) : States := fun id =>
  match fresh id with
  | some state => some (recorded (states.retain fresh id) state)
  | none => states.retain fresh id

def executeHeartbeatCheck (now : Time) (targetId : Uuid) (orgId : OrgId) (check : HeartbeatCheck)
    (states : States) : CheckResult :=
  match states targetId with
  | none =>
    { targetId, orgId, timestamp := now, status := .error, durationMs := 0, dnsMs := none
      connectMs := none, tlsMs := none, ttfbMs := none, responseCode := none
      responseSize := none, diagnostic := none
      error := some "heartbeat state unavailable on this node" }
  | some state =>
    let error := verdict now state check
    { targetId, orgId, timestamp := now, status := if error.isNone then .up else .down
      durationMs := 0, dnsMs := none, connectMs := none, tlsMs := none, ttfbMs := none
      responseCode := none, responseSize := none, diagnostic := none, error }

/-! ## What the parts do -/

theorem exitCodeOf_toNat (code : Option UInt8) :
    exitCodeOf (code.map fun c => (c.toNat : Int)) = code := by
  cases code with
  | none => rfl
  | some c =>
    have hlt : c.toNat < 256 := c.toNat_lt
    have hrange : (0 : Int) ≤ c.toNat ∧ (c.toNat : Int) ≤ 255 := by omega
    simp [exitCodeOf, hrange]

theorem asU8_eq_exitCodeOf {stored : Option Int} (h : ∀ c ∈ stored, 0 ≤ c ∧ c ≤ 255) :
    stored.map asU8 = exitCodeOf stored := by
  cases stored with
  | none => rfl
  | some c =>
    have hc := h c rfl
    have hmod : c % 256 = c := Int.emod_eq_of_lt hc.1 (by omega)
    simp [exitCodeOf, asU8, hc, hmod]

namespace HeartbeatRow
variable (row : HeartbeatRow) (now : Time) (signal : PingSignal) (exitCode : Option UInt8)

theorem snapshot_eq : row.snapshot = row.state := by
  unfold snapshot state
  rw [asU8_eq_exitCodeOf row.exitCodeRange]

theorem pingState_monitor : row.monitor.pingState = row.state := rfl

theorem monitor_recordSignal :
    (row.recordSignal now signal exitCode).monitor =
      (row.monitor.recordSignal now signal exitCode).1 := by
  have hcode := exitCodeOf_toNat exitCode
  cases hfirst : row.firstPingAt <;> cases signal <;>
    simp [monitor, recordSignal, HeartbeatMonitor.recordSignal, HeartbeatMonitor.isPending, hfirst,
      hcode]

theorem accepted_recordSignal :
    row.accepted (row.recordSignal now signal exitCode) signal =
      (row.monitor.recordSignal now signal exitCode).2 := by
  have hstate : (row.recordSignal now signal exitCode).state =
      (row.monitor.recordSignal now signal exitCode).1.pingState := by
    rw [← monitor_recordSignal, pingState_monitor]
  have hopen (code : Option UInt8) :
      (pingStateOf row.armedAt row.lastPingAt row.lastStartAt row.lastFailAt none).runOpenSince =
        (pingStateOf row.armedAt row.lastPingAt row.lastStartAt row.lastFailAt
          code).runOpenSince := by
    cases hfail : row.lastFailAt <;> rfl
  unfold accepted
  rw [hstate]
  cases signal with
  | start => rfl
  | success => simp [runMsOf, hopen (exitCodeOf row.lastExitCode)]; rfl
  | fail => simp [runMsOf, hopen (exitCodeOf row.lastExitCode)]; rfl

/-- Before the first ping nothing is recorded. -/
def Wired : Prop :=
  row.firstPingAt = none → row.lastPingAt = none ∧ row.lastStartAt = none ∧ row.lastFailAt = none

theorem wired_recordSignal : (row.recordSignal now signal exitCode).Wired := nofun

variable {row now exitCode}

theorem state_start (hw : row.Wired) :
    (row.recordSignal now .start exitCode).state =
      { row.state with
        successAt := if row.firstPingAt = none then now else row.state.successAt
        startAt := some now } := by
  by_cases hfirst : row.firstPingAt = none
  · simp [state, pingStateOf, recordSignal, hfirst, (hw hfirst).1]
  · simp [state, pingStateOf, recordSignal, hfirst]

theorem state_success_max :
    (row.recordSignal now .success exitCode).state =
      { row.state with
        successAt := max now (if row.firstPingAt = none then now else row.armedAt) } := by
  simp [state, pingStateOf, recordSignal]

theorem state_fail :
    (row.recordSignal now .fail exitCode).state = { row.state with fail := some ⟨now, exitCode⟩ } := by
  simp [state, pingStateOf, recordSignal, exitCodeOf_toNat]

theorem state_rearm_max :
    (row.rearm now).state =
      { row.state with
        successAt := match row.lastPingAt with
          | none => now
          | some p => max p now } := rfl

theorem successAt_le_iff {t : Time} :
    row.state.successAt ≤ t ↔ row.armedAt ≤ t ∧ ∀ p ∈ row.lastPingAt, p ≤ t := by
  unfold state pingStateOf
  cases hp : row.lastPingAt with
  | none => simp
  | some p =>
    show max p row.armedAt ≤ t ↔ _
    rw [max_le_iff]
    constructor
    · rintro ⟨h₁, h₂⟩
      refine ⟨h₂, ?_⟩
      rintro _ ⟨⟩
      exact h₁
    · exact fun h => ⟨h.2 p rfl, h.1⟩

end HeartbeatRow

end Uptimepage.Heartbeat
