import Mathlib.Algebra.Group.Nat.Defs
import Mathlib.Data.List.Infix
import Uptimepage.Async.Run

/-!
# The result batcher

`pipeline/batcher.rs`: `ResultBatcher::run` with `drain`, `push_capped` and `flush`.  The
loop awaits in two places, the `select!` and the sink's write, so a flush is two steps:
the one that starts it and the one in which the sink answers.
-/

namespace Uptimepage

open Async

def maxFlushRetries : Nat := 3

def maxBufferMult : Nat := 8

def usizeMax : Nat := 2 ^ 64 - 1

/-- `batch_timeout` only decides when a tick comes, and ticks are steps here. -/
structure BatcherConfig where
  batchSize : Nat
deriving DecidableEq

/-- `batch_size.saturating_mul(MAX_BUFFER_MULT)`. -/
def BatcherConfig.maxBuffer (cfg : BatcherConfig) : Nat :=
  min (cfg.batchSize * maxBufferMult) usizeMax

/-- Where `run` is: at the `select!`, in `drain`, awaiting the sink (`leaving` when the
function returns after it), or gone. -/
inductive BatcherPhase
  | selecting
  | draining
  | flushing (leaving : Bool)
  | returned
deriving DecidableEq

/-- `received` are the results taken off the channel and `accepted` the batches the sink
said `Ok` to, both in order. -/
structure Batcher (α : Type) where
  phase : BatcherPhase
  buffer : List α
  retryAttempts : Nat
  dropped : Nat
  received : List α
  accepted : List (List α)
deriving DecidableEq

/-- What `run` waits for: `received` and `closed` are the two answers of `rx.recv()`,
`drained` and `emptied` those of `try_recv` in `drain`, `wrote` the sink's. -/
inductive BatcherEvent (α : Type)
  | received (r : α)
  | closed
  | tick
  | cancelled
  | drained (r : α)
  | emptied
  | wrote (ok : Bool)

/-- Results numbered as they come off the channel, `n` being the next number.  The sink's
answer is left out: a system around the batcher computes it. -/
def BatcherEvent.numbered {α : Type} (n : Nat) :
    BatcherEvent α → Option (BatcherEvent (Nat × α))
  | .received r => some (.received (n, r))
  | .drained r => some (.drained (n, r))
  | .closed => some .closed
  | .tick => some .tick
  | .cancelled => some .cancelled
  | .emptied => some .emptied
  | .wrote _ => none

namespace Batcher

variable {α : Type}

def start : Batcher α where
  phase := .selecting
  buffer := []
  retryAttempts := 0
  dropped := 0
  received := []
  accepted := []

/-- `buffer.pop_front()` of an empty buffer pops nothing, and is counted all the same. -/
def pushCapped (cfg : BatcherConfig) (b : Batcher α) (r : α) : Batcher α :=
  if cfg.maxBuffer ≤ b.buffer.length then
    { b with buffer := b.buffer.tail ++ [r], dropped := b.dropped + 1,
             received := b.received ++ [r] }
  else
    { b with buffer := b.buffer ++ [r], received := b.received ++ [r] }

/-- `flush`, once the sink has answered. -/
def flush (b : Batcher α) (ok : Bool) : Batcher α :=
  if ok then
    { b with accepted := b.accepted ++ [b.buffer], buffer := [], retryAttempts := 0 }
  else if maxFlushRetries ≤ b.retryAttempts + 1 then
    { b with dropped := b.dropped + b.buffer.length, buffer := [], retryAttempts := 0 }
  else
    { b with retryAttempts := b.retryAttempts + 1 }

/-- `return`: the local buffer goes with the function. -/
def leave (b : Batcher α) : Batcher α :=
  { b with phase := .returned, buffer := [] }

/-- `if !buffer.is_empty() { flush(..) }`, up to the write, on the way out. -/
def flushAndLeave (b : Batcher α) : Batcher α :=
  if b.buffer = [] then b.leave else { b with phase := .flushing true }

def step (cfg : BatcherConfig) (b : Batcher α) : BatcherEvent α → Option (Batcher α)
  | .received r =>
    if b.phase = .selecting then
      let c := b.pushCapped cfg r
      some (if cfg.batchSize ≤ c.buffer.length then { c with phase := .flushing false } else c)
    else none
  | .closed => if b.phase = .selecting then some b.flushAndLeave else none
  | .tick =>
    if b.phase = .selecting then
      some (if b.buffer = [] then b else { b with phase := .flushing false })
    else none
  | .cancelled => if b.phase = .selecting then some { b with phase := .draining } else none
  | .drained r => if b.phase = .draining then some (b.pushCapped cfg r) else none
  | .emptied => if b.phase = .draining then some b.flushAndLeave else none
  | .wrote ok =>
    match b.phase with
    | .flushing false => some { b.flush ok with phase := .selecting }
    | .flushing true => some (b.flush ok).leave
    | _ => none

/-! ## What a step does to the buffer and the counter -/

theorem maxBuffer_pos {cfg : BatcherConfig} (h : 0 < cfg.batchSize) : 0 < cfg.maxBuffer := by
  unfold BatcherConfig.maxBuffer maxBufferMult usizeMax
  omega

theorem maxBuffer_le (cfg : BatcherConfig) : cfg.maxBuffer ≤ 8 * cfg.batchSize := by
  unfold BatcherConfig.maxBuffer maxBufferMult
  omega

theorem pushCapped_received (cfg : BatcherConfig) (b : Batcher α) (r : α) :
    (b.pushCapped cfg r).received = b.received ++ [r] := by
  unfold pushCapped
  split <;> rfl

theorem pushCapped_ordered {b : Batcher α} (h : b.buffer <:+ b.received) (cfg : BatcherConfig)
    (r : α) : (b.pushCapped cfg r).buffer <:+ (b.pushCapped cfg r).received := by
  obtain ⟨before, hbefore⟩ := h
  unfold pushCapped
  split
  · cases hb : b.buffer with
    | nil => exact List.suffix_append _ _
    | cons oldest rest =>
      refine ⟨before ++ [oldest], ?_⟩
      rw [← hbefore, hb]
      simp
  · exact ⟨before, by rw [← hbefore, List.append_assoc]⟩

theorem flush_buffer (b : Batcher α) (ok : Bool) :
    (b.flush ok).buffer = [] ∨ (b.flush ok).buffer = b.buffer := by
  unfold flush
  split
  · exact .inl rfl
  · split
    · exact .inl rfl
    · exact .inr rfl

theorem flush_received (b : Batcher α) (ok : Bool) : (b.flush ok).received = b.received := by
  unfold flush
  split
  · rfl
  · split <;> rfl

/-- The result an event brings. -/
def arrivals : BatcherEvent α → List α
  | .received r | .drained r => [r]
  | _ => []

theorem step_received {cfg : BatcherConfig} {b c : Batcher α} {e : BatcherEvent α}
    (hstep : b.step cfg e = some c) :
    c.received = b.received ++ arrivals e ∧
      (b.buffer <:+ b.received → c.buffer <:+ c.received) := by
  have hleave : b.flushAndLeave.received = b.received ∧
      (b.buffer <:+ b.received → b.flushAndLeave.buffer <:+ b.flushAndLeave.received) := by
    unfold flushAndLeave
    split
    · exact ⟨rfl, fun _ => List.nil_suffix⟩
    · exact ⟨rfl, id⟩
  cases e with
  | received r =>
    simp only [step] at hstep
    split at hstep
    · cases hstep
      have hpush := pushCapped_received cfg b r
      split
      · exact ⟨hpush, fun h => pushCapped_ordered h cfg r⟩
      · exact ⟨hpush, fun h => pushCapped_ordered h cfg r⟩
    · cases hstep
  | closed =>
    simp only [step] at hstep
    split at hstep
    · cases hstep
      simpa [arrivals] using hleave
    · cases hstep
  | tick =>
    simp only [step] at hstep
    split at hstep
    · cases hstep
      split <;> simp [arrivals]
    · cases hstep
  | cancelled =>
    simp only [step] at hstep
    split at hstep
    · cases hstep
      simp [arrivals]
    · cases hstep
  | drained r =>
    simp only [step] at hstep
    split at hstep
    · cases hstep
      exact ⟨pushCapped_received cfg b r, fun h => pushCapped_ordered h cfg r⟩
    · cases hstep
  | emptied =>
    simp only [step] at hstep
    split at hstep
    · cases hstep
      simpa [arrivals] using hleave
    · cases hstep
  | wrote ok =>
    have hkept : b.buffer <:+ b.received → (b.flush ok).buffer <:+ (b.flush ok).received := by
      intro h
      rw [flush_received]
      rcases flush_buffer b ok with hnil | hsame
      · rw [hnil]
        exact List.nil_suffix
      · rwa [hsame]
    simp only [step] at hstep
    split at hstep
    · cases hstep
      exact ⟨by simp [arrivals, flush_received], hkept⟩
    · cases hstep
      exact ⟨by simp [arrivals, leave, flush_received], fun _ => List.nil_suffix⟩
    · cases hstep

/-- The results of a batcher that numbers them: each has its own number. -/
structure Numbered (b : Batcher (Nat × α)) : Prop where
  received : b.received.map Prod.fst = List.range b.received.length
  buffer : b.buffer <:+ b.received

theorem numbered_start : (start : Batcher (Nat × α)).Numbered where
  received := rfl
  buffer := List.nil_suffix

theorem Numbered.nodup {b : Batcher (Nat × α)} (h : b.Numbered) :
    (b.buffer.map Prod.fst).Nodup := by
  have hall : (b.received.map Prod.fst).Nodup := by
    rw [h.received]
    exact List.nodup_range
  exact hall.sublist (h.buffer.sublist.map Prod.fst)

theorem Numbered.step_wrote {cfg : BatcherConfig} {b c : Batcher (Nat × α)} (h : b.Numbered)
    {ok : Bool} (hstep : b.step cfg (.wrote ok) = some c) : c.Numbered := by
  obtain ⟨hreceived, hbuffer⟩ := step_received hstep
  have hsame : c.received = b.received := by simpa [arrivals] using hreceived
  refine ⟨?_, hbuffer h.buffer⟩
  rw [hsame]
  exact h.received

theorem Numbered.step_numbered {cfg : BatcherConfig} {b c : Batcher (Nat × α)} (h : b.Numbered)
    {e : BatcherEvent α} {e' : BatcherEvent (Nat × α)}
    (he : e.numbered b.received.length = some e') (hstep : b.step cfg e' = some c) :
    c.Numbered := by
  obtain ⟨hreceived, hbuffer⟩ := step_received hstep
  refine ⟨?_, hbuffer h.buffer⟩
  have harrives : arrivals e' = [] ∨ ∃ r, arrivals e' = [(b.received.length, r)] := by
    cases e <;> cases he <;> simp [arrivals]
  rcases harrives with hnone | ⟨r, hone⟩
  · rw [hreceived, hnone, List.append_nil]
    exact h.received
  · rw [hreceived, hone, List.map_append, h.received, List.length_append]
    exact List.range_succ.symm

theorem Numbered.lt {b : Batcher (Nat × α)} (h : b.Numbered) {n : Nat}
    (hn : n ∈ b.buffer.map Prod.fst) : n < b.received.length := by
  have hmem := (h.buffer.sublist.map Prod.fst).subset hn
  rw [h.received] at hmem
  exact List.mem_range.mp hmem

theorem mem_buffer_of_step {cfg : BatcherConfig} {b c : Batcher α} {e : BatcherEvent α} {r : α}
    (hstep : b.step cfg e = some c) (hr : r ∈ c.buffer) : r ∈ b.buffer ∨ r ∈ arrivals e := by
  have hpush : ∀ {x : α}, r ∈ (b.pushCapped cfg x).buffer → r ∈ b.buffer ∨ r = x := by
    intro x hx
    unfold pushCapped at hx
    split at hx
    · rcases List.mem_append.mp hx with hold | hnew
      · exact .inl (List.mem_of_mem_tail hold)
      · exact .inr (List.mem_singleton.mp hnew)
    · simpa using hx
  have hleave : r ∈ b.flushAndLeave.buffer → r ∈ b.buffer := by
    unfold flushAndLeave
    split
    · intro hnil
      cases hnil
    · exact id
  have hflush : ∀ {ok : Bool}, r ∈ (b.flush ok).buffer → r ∈ b.buffer := by
    intro ok hok
    rcases flush_buffer b ok with hnil | hsame
    · rw [hnil] at hok
      cases hok
    · rwa [hsame] at hok
  cases e with
  | received x =>
    simp only [step] at hstep
    split at hstep <;> cases hstep
    refine (hpush (x := x) ?_).imp_right fun h => by simp [arrivals, h]
    split at hr <;> exact hr
  | drained x =>
    simp only [step] at hstep
    split at hstep <;> cases hstep
    exact (hpush hr).imp_right fun h => by simp [arrivals, h]
  | closed | emptied =>
    simp only [step] at hstep
    split at hstep <;> cases hstep
    exact .inl (hleave hr)
  | tick =>
    simp only [step] at hstep
    split at hstep <;> cases hstep
    split at hr <;> exact .inl hr
  | cancelled =>
    simp only [step] at hstep
    split at hstep <;> cases hstep
    exact .inl hr
  | wrote ok =>
    simp only [step] at hstep
    split at hstep <;> cases hstep
    · exact .inl (hflush hr)
    · cases hr

theorem buffer_of_accepted {cfg : BatcherConfig} {b c : Batcher α}
    (hstep : b.step cfg (.wrote true) = some c) : c.buffer = [] := by
  simp only [step] at hstep
  split at hstep <;> cases hstep <;> rfl

theorem step_numbered_mem {cfg : BatcherConfig} {b c : Batcher (Nat × α)} {e : BatcherEvent α}
    {e' : BatcherEvent (Nat × α)} (he : e.numbered b.received.length = some e')
    (hstep : b.step cfg e' = some c) {n : Nat} (hn : n ∈ c.buffer.map Prod.fst) :
    n ∈ b.buffer.map Prod.fst ∨ n = b.received.length := by
  obtain ⟨r, hr, rfl⟩ := List.mem_map.mp hn
  rcases mem_buffer_of_step hstep hr with hold | hnew
  · exact .inl (List.mem_map_of_mem hold)
  · cases e <;> cases he <;> simp_all [arrivals]

/-! ## Accounting -/

/-- Every received result is in exactly one of three places: a batch the sink accepted, the
buffer, or the results the counter stands for.  The buffer is what arrived last, in the
order it arrived, and keeps to eight batches. -/
structure Accounted (cfg : BatcherConfig) (b : Batcher α) : Prop where
  once : ∃ lost : List α, lost.length = b.dropped ∧
    (b.accepted.flatten ++ b.buffer ++ lost).Perm b.received
  ordered : b.buffer <:+ b.received
  bounded : b.buffer.length ≤ 8 * cfg.batchSize

/-- A step that counts what it loses, and only that: no result is pushed into a buffer of
capacity zero, and the function does not return with results that the last write refused
before its third attempt. -/
def Counts (cfg : BatcherConfig) (b : Batcher α) : BatcherEvent α → Prop
  | .received _ => 0 < cfg.batchSize
  | .drained _ => 0 < cfg.batchSize
  | .wrote ok =>
    b.phase = .flushing true → b.buffer ≠ [] → ok = false → maxFlushRetries ≤ b.retryAttempts + 1
  | _ => True

variable {cfg : BatcherConfig} {b c : Batcher α}

theorem accounted_start (cfg : BatcherConfig) : (start : Batcher α).Accounted cfg where
  once := ⟨[], rfl, .nil⟩
  ordered := List.nil_suffix
  bounded := Nat.zero_le _

theorem accounted_phase (p : BatcherPhase) :
    ({ b with phase := p } : Batcher α).Accounted cfg ↔ b.Accounted cfg :=
  ⟨fun h => ⟨h.once, h.ordered, h.bounded⟩, fun h => ⟨h.once, h.ordered, h.bounded⟩⟩

theorem Accounted.total (h : b.Accounted cfg) :
    b.accepted.flatten.length + b.buffer.length + b.dropped = b.received.length := by
  obtain ⟨lost, hlen, hperm⟩ := h.once
  have := hperm.length_eq
  simp only [List.length_append] at this
  omega

theorem pushCapped_accounted (hpos : 0 < cfg.batchSize) (h : b.Accounted cfg) (r : α) :
    (b.pushCapped cfg r).Accounted cfg := by
  obtain ⟨lost, hlen, hperm⟩ := h.once
  have hmax := maxBuffer_pos hpos
  have hle := maxBuffer_le cfg
  unfold pushCapped
  split
  · next hfull =>
    cases hb : b.buffer with
    | nil =>
      rw [hb, List.length_nil] at hfull
      omega
    | cons oldest rest =>
      have hordered := pushCapped_ordered h.ordered cfg r
      rw [pushCapped, if_pos hfull, hb] at hordered
      refine ⟨⟨lost ++ [oldest], by simp [hlen], ?_⟩, hordered, ?_⟩
      · rw [hb] at hperm
        have hmove : (b.accepted.flatten ++ (rest ++ [r]) ++ (lost ++ [oldest])).Perm
            (b.accepted.flatten ++ oldest :: rest ++ lost ++ [r]) := by
          classical
          rw [List.perm_iff_count]
          intro a
          simp only [List.count_append, List.count_cons, List.count_nil]
          omega
        exact hmove.trans (hperm.append_right [r])
      · have := h.bounded
        rw [hb] at this
        simpa using this
  · next hroom =>
    have hordered := pushCapped_ordered h.ordered cfg r
    rw [pushCapped, if_neg hroom] at hordered
    refine ⟨⟨lost, hlen, ?_⟩, hordered, ?_⟩
    · have hmove : (b.accepted.flatten ++ (b.buffer ++ [r]) ++ lost).Perm
          (b.accepted.flatten ++ b.buffer ++ lost ++ [r]) := by
        classical
        rw [List.perm_iff_count]
        intro a
        simp only [List.count_append, List.count_cons, List.count_nil]
        omega
      exact hmove.trans (hperm.append_right [r])
    · simp only [List.length_append, List.length_singleton]
      omega

theorem pushCapped_buffer_pos (cfg : BatcherConfig) (b : Batcher α) (r : α) :
    0 < (b.pushCapped cfg r).buffer.length := by
  unfold pushCapped
  split <;> simp

theorem pushCapped_accounted_iff (h : b.Accounted cfg) (r : α) :
    (b.pushCapped cfg r).Accounted cfg ↔ 0 < cfg.batchSize := by
  refine ⟨fun hpush => ?_, fun hpos => pushCapped_accounted hpos h r⟩
  have hlen := pushCapped_buffer_pos cfg b r
  have := hpush.bounded
  omega

theorem flush_accounted (h : b.Accounted cfg) (ok : Bool) : (b.flush ok).Accounted cfg := by
  obtain ⟨lost, hlen, hperm⟩ := h.once
  unfold flush
  split
  · refine ⟨⟨lost, hlen, ?_⟩, List.nil_suffix, Nat.zero_le _⟩
    simpa using hperm
  · split
    · refine ⟨⟨b.buffer ++ lost, ?_, ?_⟩, List.nil_suffix, Nat.zero_le _⟩
      · simp only [List.length_append]
        omega
      · simpa using hperm
    · exact ⟨h.once, h.ordered, h.bounded⟩

theorem leave_accounted_iff (h : b.Accounted cfg) : b.leave.Accounted cfg ↔ b.buffer = [] := by
  constructor
  · intro hleave
    have hafter := hleave.total
    have hbefore := h.total
    simp only [leave, List.length_nil] at hafter
    exact List.eq_nil_of_length_eq_zero (by omega)
  · intro hnil
    obtain ⟨lost, hlen, hperm⟩ := h.once
    rw [hnil] at hperm
    exact ⟨⟨lost, hlen, hperm⟩, List.nil_suffix, Nat.zero_le _⟩

theorem flushAndLeave_accounted (h : b.Accounted cfg) : b.flushAndLeave.Accounted cfg := by
  unfold flushAndLeave
  split
  · next hnil => exact (leave_accounted_iff h).mpr hnil
  · exact (accounted_phase _).mpr h

theorem flush_buffer_eq_nil_iff (b : Batcher α) (ok : Bool) :
    (b.flush ok).buffer = [] ↔
      (b.buffer ≠ [] → ok = false → maxFlushRetries ≤ b.retryAttempts + 1) := by
  unfold flush
  cases ok with
  | true => simp
  | false =>
    simp only [Bool.false_eq_true, if_false]
    split
    · next hlast => simp [hlast]
    · next hmore =>
      refine ⟨fun hnil hne => absurd hnil hne, fun h => ?_⟩
      by_contra hne
      exact hmore (h hne trivial)

theorem step_accounted_iff (h : b.Accounted cfg) {e : BatcherEvent α}
    (hstep : b.step cfg e = some c) : c.Accounted cfg ↔ b.Counts cfg e := by
  cases e with
  | received r =>
    simp only [step] at hstep
    split at hstep
    · cases hstep
      refine Iff.trans ?_ (pushCapped_accounted_iff h r)
      split
      · exact accounted_phase _
      · exact Iff.rfl
    · cases hstep
  | closed =>
    simp only [step] at hstep
    split at hstep
    · cases hstep
      exact iff_of_true (flushAndLeave_accounted h) trivial
    · cases hstep
  | tick =>
    simp only [step] at hstep
    split at hstep
    · cases hstep
      refine iff_of_true ?_ trivial
      split
      · exact h
      · exact (accounted_phase _).mpr h
    · cases hstep
  | cancelled =>
    simp only [step] at hstep
    split at hstep
    · cases hstep
      exact iff_of_true ((accounted_phase _).mpr h) trivial
    · cases hstep
  | drained r =>
    simp only [step] at hstep
    split at hstep
    · cases hstep
      exact pushCapped_accounted_iff h r
    · cases hstep
  | emptied =>
    simp only [step] at hstep
    split at hstep
    · cases hstep
      exact iff_of_true (flushAndLeave_accounted h) trivial
    · cases hstep
  | wrote ok =>
    simp only [step] at hstep
    split at hstep
    · next hphase =>
      cases hstep
      refine iff_of_true ((accounted_phase _).mpr (flush_accounted h ok)) fun hleaving => ?_
      rw [hphase] at hleaving
      cases hleaving
    · next hphase =>
      cases hstep
      refine (leave_accounted_iff (flush_accounted h ok)).trans ?_
      refine (flush_buffer_eq_nil_iff b ok).trans ?_
      exact ⟨fun hc _ => hc, fun hc => hc hphase⟩
    · cases hstep

/-- **Every result is stored once or counted.**  Along every run whose steps count, the
books balance in every state reached, and the next step keeps them balanced exactly when
it counts too. -/
theorem accounted_iff_counts (hrun : Run (step cfg) (Counts cfg) start b) :
    b.Accounted cfg ∧
      ∀ e c, b.step cfg e = some c → (c.Accounted cfg ↔ b.Counts cfg e) := by
  have hb : b.Accounted cfg := by
    refine hrun.invariant (accounted_start cfg) fun u e v hu hcounts hstep => ?_
    exact (step_accounted_iff hu hstep).mpr hcounts
  exact ⟨hb, fun e c hstep => step_accounted_iff hb hstep⟩

instance (cfg : BatcherConfig) (b : Batcher α) : DecidablePred (b.Counts cfg)
  | .received _ => inferInstanceAs (Decidable (0 < cfg.batchSize))
  | .drained _ => inferInstanceAs (Decidable (0 < cfg.batchSize))
  | .wrote ok => inferInstanceAs (Decidable (b.phase = .flushing true → b.buffer ≠ [] →
      ok = false → maxFlushRetries ≤ b.retryAttempts + 1))
  | .closed | .tick | .cancelled | .emptied => inferInstanceAs (Decidable True)

/-- Two results, a write that fails, the retry on the next tick, and a shutdown that still
drains a third. -/
theorem accounted_iff_counts_shutdown :
    ∃ b : Batcher Nat, Run (step ⟨2⟩) (Counts ⟨2⟩) start b ∧ b.received = [1, 2, 3] ∧
      b.phase = .returned ∧ b.Accounted ⟨2⟩ := by
  let events : List (BatcherEvent Nat) := [.received 1, .received 2, .wrote false, .tick,
    .wrote true, .cancelled, .drained 3, .emptied, .wrote true]
  obtain ⟨b, hrun, hb⟩ : ∃ b : Batcher Nat,
      Run (step ⟨2⟩) (fun b e => b.Counts ⟨2⟩ e) start b ∧
        b.received = [1, 2, 3] ∧ b.phase = .returned :=
    exists_guarded_run events (by decide)
  obtain ⟨hreceived, hphase⟩ := hb
  exact ⟨b, hrun, hreceived, hphase, (accounted_iff_counts hrun).1⟩

/-- A shutdown whose one write fails returns with the result neither stored nor counted. -/
theorem last_flush_uncounted :
    ∃ b : Batcher Nat, Run (step ⟨2⟩) (fun _ _ => True) start b ∧ ¬ b.Accounted ⟨2⟩ := by
  let events : List (BatcherEvent Nat) := [.received 1, .cancelled, .emptied, .wrote false]
  obtain ⟨b, hrun, hb⟩ : ∃ b : Batcher Nat,
      Run (step ⟨2⟩) (fun _ _ => True) start b ∧
        b.received = [1] ∧ b.accepted = [] ∧ b.buffer = [] ∧ b.dropped = 0 :=
    exists_run_satisfying events (by decide)
  refine ⟨b, hrun, fun hacc => ?_⟩
  obtain ⟨hreceived, haccepted, hbuffer, hdropped⟩ := hb
  have := hacc.total
  simp [hreceived, haccepted, hbuffer, hdropped] at this

/-! ## Order -/

variable {e : BatcherEvent α}

/-- What was accepted and what waits, in the order of arrival. -/
def InOrder (b : Batcher α) : Prop := (b.accepted.flatten ++ b.buffer).Sublist b.received

theorem InOrder.emptied (h : b.InOrder) : (b.accepted.flatten ++ []).Sublist b.received :=
  ((List.nil_sublist b.buffer).append_left _).trans h

theorem InOrder.pushCapped (h : b.InOrder) (r : α) : (b.pushCapped cfg r).InOrder := by
  unfold Batcher.pushCapped InOrder
  split
  · rw [← List.append_assoc]
    exact (((List.tail_sublist b.buffer).append_left _).trans h).append_right [r]
  · rw [← List.append_assoc]
    exact h.append_right [r]

theorem InOrder.flush (h : b.InOrder) (ok : Bool) : (b.flush ok).InOrder := by
  unfold Batcher.flush
  split
  · simpa [InOrder] using h
  · split
    · exact h.emptied
    · exact h

theorem InOrder.flushAndLeave (h : b.InOrder) : b.flushAndLeave.InOrder := by
  unfold Batcher.flushAndLeave
  split
  · exact h.emptied
  · exact h

theorem step_inOrder (h : b.InOrder) (hstep : b.step cfg e = some c) : c.InOrder := by
  cases e with
  | received r =>
    simp only [step] at hstep
    split at hstep <;> cases hstep
    split <;> exact h.pushCapped r
  | drained r =>
    simp only [step] at hstep
    split at hstep <;> cases hstep
    exact h.pushCapped r
  | closed | emptied =>
    simp only [step] at hstep
    split at hstep <;> cases hstep
    exact h.flushAndLeave
  | tick =>
    simp only [step] at hstep
    split at hstep <;> cases hstep
    split <;> exact h
  | cancelled =>
    simp only [step] at hstep
    split at hstep <;> cases hstep
    exact h
  | wrote ok =>
    simp only [step] at hstep
    split at hstep <;> cases hstep
    · exact h.flush ok
    · exact (h.flush ok).emptied

/-- **What is stored is stored in the order of arrival**, along every run, whatever fails. -/
theorem accepted_in_order (hrun : Run (step cfg) (fun _ _ => True) start b) :
    (b.accepted.flatten ++ b.buffer).Sublist b.received :=
  hrun.invariant (I := InOrder) (List.Sublist.refl []) fun _ _ _ h _ hstep => step_inOrder h hstep

theorem accepted_in_order_retried :
    ∃ b : Batcher Nat, Run (step ⟨2⟩) (fun _ _ => True) start b ∧ b.received = [1, 2, 3] ∧
      b.dropped = 0 ∧ (b.accepted.flatten ++ b.buffer).Sublist b.received := by
  let events : List (BatcherEvent Nat) :=
    [.received 1, .received 2, .wrote false, .received 3, .wrote true]
  obtain ⟨b, hrun, hb⟩ : ∃ b : Batcher Nat, Run (step ⟨2⟩) (fun _ _ => True) start b ∧
      b.received = [1, 2, 3] ∧ b.dropped = 0 :=
    exists_run_satisfying events (by decide)
  obtain ⟨hreceived, hdropped⟩ := hb
  exact ⟨b, hrun, hreceived, hdropped, accepted_in_order hrun⟩

end Batcher

end Uptimepage
