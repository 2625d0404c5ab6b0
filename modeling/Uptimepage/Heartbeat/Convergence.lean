import Uptimepage.Crdt.Cache
import Uptimepage.Heartbeat.Merge

/-!
# The cache of ping states and its store

The heartbeat cache of one node over all targets: pings accepted here or by other nodes, re-arms
and the snapshots of the refresh tick, each applied to the cache some time after it was read.
`converges_iff` says that every order ends at the state of the rows exactly if each write is
`InOrder`.  A write carries the time at which its transaction began, which need not be the order
in which transactions get the row.
-/

namespace Uptimepage.Heartbeat

open Async Crdt PingState

inductive Write
  | ping (now : Time) (signal : PingSignal) (exitCode : Option UInt8)
  | rearm (now : Time)
deriving DecidableEq

def HeartbeatRow.write (row : HeartbeatRow) : Write → HeartbeatRow
  | .ping now signal code => row.recordSignal now signal code
  | .rearm now => row.rearm now

def store : Store HeartbeatRow Write PingState where
  apply := HeartbeatRow.write
  reports
    | .ping _ _ _ => true
    | .rearm _ => false
  accepted := HeartbeatRow.state
  snapshot := HeartbeatRow.snapshot
  same := HeartbeatRow.snapshot_eq

/-! ## Writes in order -/

/-- The write is not before what it overwrites; two failures of one time have one exit code. -/
def InOrder (row : HeartbeatRow) : Write → Prop
  | .ping now .start _ =>
    (row.firstPingAt = none → row.armedAt ≤ now) ∧ ∀ s ∈ row.lastStartAt, s ≤ now
  | .ping now .success _ =>
    (row.firstPingAt = none → row.armedAt ≤ now) ∧
      ∀ p ∈ row.lastPingAt, p ≤ now ∨ p ≤ row.armedAt
  | .ping now .fail code => ∀ f ∈ row.state.fail, f.time < now ∨ f = ⟨now, code⟩
  | .rearm now => row.armedAt ≤ now ∨ ∃ p ∈ row.lastPingAt, row.armedAt ≤ p

def AllInOrder (rows : Uuid → HeartbeatRow) : List (Uuid × Write) → Prop
  | [] => True
  | (id, w) :: ws =>
    InOrder (rows id) w ∧ AllInOrder (Function.update rows id ((rows id).write w)) ws

variable {row : HeartbeatRow} {now : Time} {code : Option UInt8}

theorem wired_write (hw : row.Wired) (w : Write) : (row.write w).Wired := by
  cases w with
  | ping now signal code => exact HeartbeatRow.wired_recordSignal row now signal code
  | rearm now => exact hw

theorem older_start_iff (hw : row.Wired) :
    Older row.state (row.recordSignal now .start code).state ↔ InOrder row (.ping now .start code) := by
  rw [HeartbeatRow.state_start hw, older_iff]
  have hstart : stamp row.state.startAt ≤ stamp (some now) ↔ ∀ s ∈ row.lastStartAt, s ≤ now :=
    stamp_le_iff
  have hsucc : (row.state.successAt ≤
      if row.firstPingAt = none then now else row.state.successAt) ↔
      (row.firstPingAt = none → row.armedAt ≤ now) := by
    by_cases hfirst : row.firstPingAt = none
    · rw [if_pos hfirst, HeartbeatRow.successAt_le_iff, (hw hfirst).1]
      constructor
      · exact fun h _ => h.1
      · exact fun h => ⟨h hfirst, nofun⟩
    · rw [if_neg hfirst]
      exact ⟨fun _ h => absurd h hfirst, fun _ => le_rfl⟩
  constructor
  · exact fun h => ⟨hsucc.mp h.1.success, hstart.mp h.1.start⟩
  · exact fun h => ⟨⟨hsucc.mpr h.1, hstart.mpr h.2, le_rfl⟩, fun _ => rfl⟩

theorem older_success_iff (hw : row.Wired) :
    Older row.state (row.recordSignal now .success code).state ↔
      InOrder row (.ping now .success code) := by
  rw [HeartbeatRow.state_success_max, older_successAt, HeartbeatRow.successAt_le_iff]
  show _ ↔ (row.firstPingAt = none → row.armedAt ≤ now) ∧ _
  by_cases hfirst : row.firstPingAt = none
  · rw [if_pos hfirst, (hw hfirst).1, max_self]
    constructor
    · exact fun h => ⟨fun _ => h.1, nofun⟩
    · exact fun h => ⟨h.1 hfirst, nofun⟩
  · rw [if_neg hfirst]
    constructor
    · exact fun h => ⟨fun hnone => absurd hnone hfirst, fun p hp => le_max_iff.mp (h.2 p hp)⟩
    · exact fun h => ⟨le_max_right _ _, fun p hp => le_max_iff.mpr (h.2 p hp)⟩

theorem older_fail_iff :
    Older row.state (row.recordSignal now .fail code).state ↔ InOrder row (.ping now .fail code) := by
  rw [HeartbeatRow.state_fail, older_fail]
  show _ ↔ ∀ f ∈ row.state.fail, f.time < now ∨ f = ⟨now, code⟩
  cases hf : row.state.fail with
  | none => exact ⟨fun _ => nofun, fun _ => .inl (WithBot.bot_lt_coe now)⟩
  | some f =>
    have hlt : failStamp (some f) < failStamp (some ⟨now, code⟩) ↔ f.time < now :=
      WithBot.coe_lt_coe
    rw [hlt, Option.some.injEq]
    constructor
    · rintro h _ ⟨⟩
      exact h
    · exact fun h => h f rfl

theorem older_rearm_iff : Older row.state (row.rearm now).state ↔ InOrder row (.rearm now) := by
  rw [HeartbeatRow.state_rearm_max, older_successAt, HeartbeatRow.successAt_le_iff]
  show _ ↔ row.armedAt ≤ now ∨ ∃ p ∈ row.lastPingAt, row.armedAt ≤ p
  cases hp : row.lastPingAt with
  | none => simp
  | some p =>
    have hmax : row.armedAt ≤ max p now ↔ row.armedAt ≤ p ∨ row.armedAt ≤ now := le_max_iff
    simp [hmax, or_comm]

theorem older_write_iff (hw : row.Wired) (w : Write) :
    Older row.state (row.write w).state ↔ InOrder row w := by
  cases w with
  | ping now signal code =>
    cases signal with
    | start => exact older_start_iff hw
    | success => exact older_success_iff hw
    | fail => exact older_fail_iff
  | rearm now => exact older_rearm_iff

theorem advances_iff {rows : Uuid → HeartbeatRow} (hw : ∀ id, (rows id).Wired)
    (ws : List (Uuid × Write)) : store.Advances rows ws ↔ AllInOrder rows ws := by
  induction ws generalizing rows with
  | nil => exact Iff.rfl
  | cons x ws ih =>
    have hw' (id : Uuid) : (store.written rows x.1 x.2 id).Wired := by
      unfold Store.written
      by_cases heq : id = x.1
      · rw [heq, Function.update_self]
        exact wired_write (hw x.1) x.2
      · rw [Function.update_of_ne heq]
        exact hw id
    exact and_congr (older_write_iff (hw x.1) x.2) (ih hw')

/-! ## Every order of pings and snapshots -/

def inserted (created : Uuid → Time) (id : Uuid) : HeartbeatRow := .inserted (created id)

theorem converges_iff (created : Uuid → Time) (ws : List (Uuid × Write)) :
    (∀ a b c : PingState,
      (a.mergeNewer b).mergeNewer c = a.mergeNewer (b.mergeNewer c) ∧ a.mergeNewer a = a ∧
        NotAfter a (a.mergeNewer b) ∧ NotAfter b (a.mergeNewer b)) ∧
    ((∀ ls, writesOf ls = ws →
        Throughout store.step (State.Agrees store) (.start (inserted created)) ls) ↔
      AllInOrder (inserted created) ws) := by
  constructor
  · intro a b c
    exact ⟨Register.merge_assoc a b c, Register.merge_self a, covers_iff.1 (covers_merge_left a b),
      covers_iff.1 (covers_merge_right a b)⟩
  · rw [agrees_iff]
    exact advances_iff (fun _ _ => ⟨rfl, rfl, rfl⟩) ws

namespace Late

/-- The ping whose transaction began at 2 gets the row after the one that began at 3. -/
def order : List (Crdt.Label Uuid Write) :=
  [.write 7 (.ping 1 .success none) true, .deliver 0, .write 7 (.ping 3 .success none) true,
    .deliver 0, .write 7 (.ping 2 .success none) true, .read fun _ => false, .deliver 0,
    .deliver 0]

def rows : Uuid → HeartbeatRow := inserted fun _ => 0

def final : State Uuid HeartbeatRow PingState :=
  ((steps store.step (.start rows) order).getD (.start rows))

theorem steps_order : steps store.step (.start rows) order = some final := rfl

end Late

/-- The row says 2, the cache 3, though every view of the row has been applied. -/
theorem cache_ahead_of_row :
    ¬ ∀ ls, Throughout store.step (State.Agrees store) (.start Late.rows) ls := by
  intro h
  have hfinal := (h Late.order).of_steps Late.steps_order
  have hshown := hfinal.shown 7 (by decide)
  have hne : Late.final.cache 7 ≠ some (store.accepted (Late.final.rows 7)) := by decide
  exact hne hshown

end Uptimepage.Heartbeat
