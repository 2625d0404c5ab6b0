import Uptimepage.Escalation.Footprint
import Uptimepage.Store.Ledger

/-!
# What one move of the engine does

`Step` is the inversion of `Engine.step`, one constructor per label.  `step_db` is its
effect on the database: nothing, the operation a task was about to call, or the lease of
the escalation scan.
-/

namespace Uptimepage

open Async

/-! ## Calls -/

/-- A question about store calls, asked of any call. -/
def Op.onStore (f : (o : StoreOp) → Except StoreError o.Ret → Bool) : (o : Op) → o.Res → Bool
  | .store o, r => f o r
  | _, _ => false

section
variable {lower : String → String} {me : Nat} {c : Choice} {s s' : Sys}

theorem Sys.call_store {o : StoreOp} {r : Except StoreError o.Ret}
    (h : Sys.call lower me (.store o) c s = some (r, s')) :
    (c.fails = true ∧ r = .error .failed ∧ s' = { s with clock := s.tick c }) ∨
      (c.fails = false ∧ r = (s.db.exec lower (s.tick c) o).1 ∧
        s' = { s with clock := s.tick c, db := (s.db.exec lower (s.tick c) o).2 }) := by
  simp only [Sys.call] at h
  split at h
  · next hf =>
    cases h
    exact .inl ⟨hf, rfl, rfl⟩
  · next hf =>
    cases h
    exact .inr ⟨by simpa using hf, rfl, rfl⟩

theorem Sys.call_db {o : Op} {r : o.Res} (h : Sys.call lower me o c s = some (r, s')) :
    s'.db = s.db ∨ ∃ so, o = .store so ∧ c.fails = false ∧
      s'.db = (s.db.exec lower (s.tick c) so).2 := by
  cases o with
  | store so =>
    rcases Sys.call_store h with ⟨-, -, rfl⟩ | ⟨hf, -, rfl⟩
    · exact .inl rfl
    · exact .inr ⟨so, rfl, hf, rfl⟩
  | begin =>
    simp only [Sys.call] at h
    split at h <;> cases h <;> exact .inl rfl
  | lock shard =>
    simp only [Sys.call] at h
    split at h
    · cases h
    · cases h
      exact .inl rfl
  | _ =>
    simp only [Sys.call, Option.some.injEq] at h
    cases h
    exact .inl rfl

theorem Sys.lt_tick (s : Sys) (c : Choice) : s.clock < s.tick c := by
  have h : (0 : Int) < 1 + (c.elapsed : Int) := by omega
  have hlt := Int.lt_add_of_pos_right s.clock h
  rwa [← Int.add_assoc] at hlt

theorem Sys.call_clock {o : Op} {r : o.Res} (h : Sys.call lower me o c s = some (r, s')) :
    s'.clock = s.tick c := by
  cases o with
  | store so => rcases Sys.call_store h with ⟨-, -, rfl⟩ | ⟨-, -, rfl⟩ <;> rfl
  | begin =>
    simp only [Sys.call] at h
    split at h <;> cases h <;> rfl
  | lock shard =>
    simp only [Sys.call] at h
    split at h
    · cases h
    · cases h
      rfl
  | _ =>
    simp only [Sys.call, Option.some.injEq] at h
    cases h
    rfl

end

theorem Worker.scan_db (w : Worker) (lower : String → String) (now : Time) (db : Db) (ph : Phase) :
    (w.scan now db ph).2 = db ∨ ∃ limit lease,
      (w.scan now db ph).2 = (db.exec lower now (.dueForEscalation now limit lease)).2 := by
  cases ph with
  | escalateDue => exact .inr ⟨_, _, rfl⟩
  | _ => exact .inl rfl

/-! ## Moves -/

namespace Engine

variable {lower : String → String} {w : Worker} {e e' : Engine lower} {l : Label}

inductive Step (w : Worker) (e : Engine lower) : Label → Engine lower → Prop
  | task {i : Nat} {c : Choice} {P : Pool (machine lower) Tag} :
      e.pool.sched i c = some P → Step w e (.task i c) ⟨P, e.sweep⟩
  | recv {sig : IncidentSignal} {rest : List IncidentSignal} : e.sys.signals = sig :: rest →
      Step w e .recv ((e.withStore { e.sys with signals := rest }).spawn w (.signal sig))
  | request {r : Request} : Step w e (.request r) (e.spawn w (.request r))
  | tick : e.sweep = none → Step w e .tick ⟨e.pool, some ⟨.reconcile, none, []⟩⟩
  | scanFailed {c : Choice} {ph : Phase} {running : List Nat} :
      e.sweep = some ⟨ph, none, running⟩ → c.fails = true →
      Step w e (.scan c)
        ⟨(e.withStore { e.sys with clock := e.sys.tick c }).pool, some ⟨ph, some [], running⟩⟩
  | scan {c : Choice} {ph : Phase} {running : List Nat} :
      e.sweep = some ⟨ph, none, running⟩ → c.fails = false →
      Step w e (.scan c)
        ⟨(e.withStore { e.sys with
            clock := e.sys.tick c, db := (w.scan (e.sys.tick c) e.db ph).2 }).pool,
          some ⟨ph, some (w.scan (e.sys.tick c) e.db ph).1, running⟩⟩
  | start {ph : Phase} {it : Item} {rest : List Item} {running : List Nat} :
      e.sweep = some ⟨ph, some (it :: rest), running⟩ →
      Step w e .start
        ⟨(e.spawn w (.item it)).pool, some ⟨ph, some rest, e.pool.progs.length :: running⟩⟩
  | advance {ph : Phase} {todo : List Item} {running : List Nat} :
      e.sweep = some ⟨ph, some todo, running⟩ → running.any e.pool.live = false →
      Step w e .advance ⟨e.pool, ph.next.map fun p => ⟨p, none, []⟩⟩

theorem step_cases (h : e.step w l = some e') : Step w e l e' := by
  cases l with
  | task i c =>
    simp only [step, Option.map_eq_some_iff] at h
    obtain ⟨P, hP, rfl⟩ := h
    exact .task hP
  | recv =>
    simp only [step] at h
    split at h
    · cases h
    · next hs =>
      cases h
      exact .recv hs
  | request r =>
    cases h
    exact .request
  | tick =>
    simp only [step] at h
    split at h
    · cases h
    · next hs =>
      cases h
      exact .tick hs
  | scan c =>
    simp only [step] at h
    split at h
    · next hs =>
      split at h
      · next hf =>
        cases h
        exact .scanFailed hs hf
      · next hf =>
        cases h
        exact .scan hs (by simpa using hf)
    · cases h
  | start =>
    simp only [step] at h
    split at h
    · next hs =>
      split at h
      · cases h
        exact .start hs
      · cases h
    · cases h
  | advance =>
    simp only [step] at h
    split at h
    · next hs =>
      split at h
      · cases h
      · next hl =>
        cases h
        exact .advance hs (by simpa using hl)
    · cases h

/-- The call task `i` makes next. -/
def nextOp (e : Engine lower) (i : Nat) : Option Op := (e.pool.progs[i]?).bind Prog.next

/-- Task `i` is about to call `o`. -/
def Next (e : Engine lower) (i : Nat) (o : Op) : Prop :=
  ∃ k, e.pool.progs[i]? = some (.call o k)

theorem Next.nextOp_eq {i : Nat} {o : Op} (h : e.Next i o) : e.nextOp i = some o := by
  obtain ⟨k, hk⟩ := h
  unfold nextOp
  rw [hk]
  rfl

theorem step_task {i : Nat} {c : Choice} {P : Pool (machine lower) Tag}
    (h : e.pool.sched i c = some P) :
    ∃ (o : Op) (k : o.Res → Prog calls Unit) (r : o.Res),
      e.pool.progs[i]? = some (.call o k) ∧
      Sys.call lower i o c e.sys = some (r, P.world.store) ∧ o.Honest r ∧
      P.world.tags = e.pool.world.tags ∧ P.world.log = ⟨i, o, r⟩ :: e.pool.world.log ∧
      P.progs = e.pool.progs.set i (k r) := by
  obtain ⟨o, k, r, hp, hc, hset⟩ := Pool.sched_eq_some h
  obtain ⟨hcall, htags, hlog⟩ := World.call_eq_some hc
  exact ⟨o, k, r, hp, hcall, Sys.call_honest hcall, htags, hlog, hset⟩

inductive DbStep (e e' : Engine lower) : Label → Prop
  | same {l : Label} : e'.db = e.db → DbStep e e' l
  | call {i : Nat} {c : Choice} {o : StoreOp} : e.Next i (.store o) → c.fails = false →
      e'.db = (e.db.exec lower (e.sys.tick c) o).2 → DbStep e e' (.task i c)
  | lease {c : Choice} {limit : Nat} {lease : Int} :
      e'.db = (e.db.exec lower (e.sys.tick c)
        (.dueForEscalation (e.sys.tick c) limit lease)).2 → DbStep e e' (.scan c)

theorem step_db (h : e.step w l = some e') : DbStep e e' l := by
  cases step_cases h with
  | task hP =>
    obtain ⟨o, k, r, hp, hcall, -⟩ := step_task hP
    rcases Sys.call_db hcall with hsame | ⟨so, rfl, hf, heq⟩
    · exact .same hsame
    · exact .call ⟨k, hp⟩ hf heq
  | scan hs hf =>
    rcases w.scan_db lower _ e.db _ with hsame | ⟨limit, lease, heq⟩
    · exact .same hsame
    · exact .lease heq
  | recv hs => exact .same rfl
  | request => exact .same rfl
  | tick hs => exact .same rfl
  | scanFailed hs hf => exact .same rfl
  | start hs => exact .same rfl
  | advance hs hl => exact .same rfl

theorem step_log (h : e.step w l = some e') : ∀ x ∈ e.pool.world.log, x ∈ e'.pool.world.log := by
  intro x hx
  cases step_cases h with
  | task hP =>
    obtain ⟨o, k, r, -, -, -, -, hlog, -⟩ := step_task hP
    rw [hlog]
    exact List.mem_cons_of_mem _ hx
  | _ => exact hx

theorem step_spawn (h : e.step w l = some e') {t : Tag}
    (ht : e'.pool.world.tags = e.pool.world.tags ++ [t]) :
    (∃ sig rest, l = .recv ∧ e.sys.signals = sig :: rest ∧ t = .signal sig) ∨
      (∃ r, t = .request r) ∨
      ∃ ph it rest running, l = .start ∧ e.sweep = some ⟨ph, some (it :: rest), running⟩ ∧
        t = .item it := by
  have hlast : ∀ t', e'.pool.world.tags = e.pool.world.tags ++ [t'] → t = t' := fun t' ht' => by
    rw [ht] at ht'
    simpa using ht'
  have hsame : e'.pool.world.tags ≠ e.pool.world.tags := fun heq => by
    rw [ht] at heq
    simp at heq
  cases step_cases h with
  | task hP =>
    obtain ⟨-, -, -, -, -, -, htags, -⟩ := step_task hP
    exact absurd htags hsame
  | @recv sig rest hs => exact .inl ⟨sig, rest, rfl, hs, hlast _ rfl⟩
  | @request r => exact .inr (.inl ⟨r, hlast _ rfl⟩)
  | @start ph it rest running hs => exact .inr (.inr ⟨ph, it, rest, running, rfl, hs, hlast _ rfl⟩)
  | _ => exact absurd rfl hsame

/-! ## What always holds -/

/-- Tasks stay in their footprints and keys stay unique. -/
structure Sound (e : Engine lower) : Prop where
  within : e.pool.Within Op.Honest Tag.Call
  keyed : e.db.Keyed

theorem sound_boot {db : Db} (hdb : db.Keyed) (clock : Time) : (boot lower db clock).Sound :=
  ⟨⟨rfl, fun i t p ht _ => by simp [boot] at ht⟩, hdb⟩

theorem within_withStore (he : e.pool.Within Op.Honest Tag.Call) (s : Sys) :
    (e.withStore s).pool.Within Op.Honest Tag.Call := he.env rfl

theorem sound_step (he : e.Sound) (h : e.step w l = some e') : e'.Sound := by
  constructor
  · cases step_cases h with
    | task hP => exact he.within.sched (fun _ _ _ _ _ _ hc => Sys.call_honest hc) hP
    | recv hs => exact (within_withStore he.within _).spawn (code_all w _)
    | request => exact he.within.spawn (code_all w _)
    | start hs => exact he.within.spawn (code_all w _)
    | scanFailed hs hf => exact within_withStore he.within _
    | scan hs hf => exact within_withStore he.within _
    | tick hs => exact he.within
    | advance hs hl => exact he.within
  · cases step_db h with
    | same heq => exact heq ▸ he.keyed
    | call _ _ heq => exact heq ▸ Db.exec_keyed he.keyed
    | lease heq => exact heq ▸ Db.exec_keyed he.keyed

end Engine

/-! ## A small installation

One organisation with one monitor, which the concrete runs of this development start
from. -/

namespace Sample

def channel (id : Uuid) (kind : ChannelKind) : NotificationChannel where
  org := 1
  id := id
  name := "on call"
  kind := kind
  enabled := true
  verifiedAt := some 0
  consecutiveFailures := 0
  failingSince := none
  lastDeliveredAt := none
  autoBindTags := []

def target (channels : TargetAlerts) (policyId : Option Uuid) : Target where
  org := 1
  id := 7
  name := "api"
  enabled := true
  planHoldAt := none
  notifyRecovery := true
  renotifyIntervalSecs := 0
  alerts := channels
  tags := []
  escalationPolicyId := policyId

/-- The alerts of a monitor bound to the one channel. -/
def alerts : TargetAlerts := ⟨[100], by decide⟩

/-- Two rungs of one channel each. -/
def policy (first second : Uuid) : EscalationPolicy where
  org := 1
  id := 50
  repeatCount := 0
  steps := [⟨1, 300, [⟨.channel, none, none, some first⟩]⟩,
    ⟨2, 300, [⟨.channel, none, none, some second⟩]⟩]
  deletedAt := none

/-- A triggered incident of the monitor. -/
def incident (policyId : Option Uuid) (level : Int) (nextAt : Option Time) : IncidentRow where
  id := 10
  targetId := some 7
  title := none
  state := .triggered
  severity := .major
  urgency := .high
  origin := .monitor
  visibility := .internal
  pagingEnabled := true
  countsAsDowntime := true
  startedAt := 0
  endedAt := none
  acknowledgedAt := none
  acknowledgedBy := none
  assignedTo := none
  resolvedBy := none
  escalationPolicyId := policyId
  escalationLevel := level
  escalationRound := 0
  nextEscalationAt := nextAt
  checkCount := 3
  errorSample := none
  regionsDown := []
  regionsUp := []
  createdAt := 0
  updatedAt := 0
  org := 1
  durationSecs := none
  renotifyCount := 0

/-- A page of the incident on a channel. -/
def note (id : Uuid) (channelId : Uuid) (reason : NotificationReason)
    (status : NotificationStatus) : NotificationRow where
  id := id
  incidentId := 10
  escalationLevel := some 1
  targetUserId := none
  channelId := some channelId
  transport := .channel .slack
  reason := reason
  status := status
  attempt := 1
  error := none
  createdAt := 0
  sentAt := some 0
  nextAttemptAt := none
  providerReceipt := none
  ackedAt := none
  org := 1

def settings (t : Target) : Settings :=
  { Settings.empty with
    targets := [t]
    channels := [channel 100 .slack, channel 101 .slack]
    policies := [policy 100 101] }

def db (t : Target) (incidents : List IncidentRow) (notes : List NotificationRow) : Db :=
  { Db.empty with
    nextId := 1000
    settings := settings t
    incidents := incidents
    notifications := notes }

/-- An incident on the first rung of its policy, its timer due. -/
def armed : Db :=
  db (target alerts (some 50)) [incident (some 50) 1 (some 0)]
    [note 20 100 .opened .sent]

/-- The monitor bound to one channel, nothing open. -/
def flat : Db := db (target alerts none) [] []

theorem flat_keyed : flat.Keyed := by
  refine ⟨?_, ?_, ?_, ?_⟩ <;> simp [flat, Sample.db]

def worker : Worker := ⟨.default, "https://status.example", "secret", id⟩

/-- Task `i` makes its next `n` calls, all well. -/
def go (i n : Nat) : List Label := List.replicate n (.task i .calm)

/-- The writer opens an incident (row 1000), and task 1 is started on its signal. -/
def opening : List Label :=
  ([.request (.openIncident 1 ⟨7, 0, .down, 2, none, [], []⟩)] : List Label) ++ go 0 2 ++
  ([.recv] : List Label)

/-- A sweep as far as the scan of its `n`-th phase, the earlier ones finding nothing to do. -/
def sweepTo : Nat → List Label
  | 0 => [.tick, .scan .calm]
  | n + 1 => sweepTo n ++ [.advance, .scan .calm]

end Sample

end Uptimepage
