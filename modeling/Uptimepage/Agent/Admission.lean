import Uptimepage.Agent.Agent

/-!
# What the control plane must refuse

The agent holds up to 512 flow runs for the next batch, the endpoint takes at most 256 in
one request, and a request that was refused puts its runs back.
-/

namespace Uptimepage

open Async

namespace PendingFlowRuns

variable {q : PendingFlowRuns} {n : Nat}

theorem length_writeRun (h : q.runs.length = min maxPendingFlowRuns n) (run : Nat × FlowRunRecord) :
    (q.writeRun run).runs.length = min maxPendingFlowRuns (n + 1) := by
  unfold writeRun
  unfold maxPendingFlowRuns at h ⊢
  split
  · simp only [List.length_append, List.length_tail, List.length_singleton]
    omega
  · simp only [List.length_append, List.length_singleton]
    omega

theorem length_putBack (h : q.runs.length = min maxPendingFlowRuns n) (run : Nat × FlowRunRecord) :
    (putBack run q).runs.length = min maxPendingFlowRuns (n + 1) := by
  unfold putBack
  unfold maxPendingFlowRuns at h ⊢
  split
  · simp only [List.length_cons, List.length_dropLast]
    omega
  · simp only [List.length_cons]
    omega

theorem length_restore (h : q.runs.length = min maxPendingFlowRuns n)
    (runs : List (Nat × FlowRunRecord)) :
    (q.restore runs).runs.length = min maxPendingFlowRuns (n + runs.length) := by
  induction runs with
  | nil => exact h
  | cons run rest ih => exact length_putBack ih run

end PendingFlowRuns

namespace Agent

variable {cfg : AgentConfig} {a a' a₀ : Agent} {e : AgentEvent}

/-- Flow runs queued since the last confirmed request was built. -/
def unsettled (a : Agent) : Nat := a.produced - a.settled

/-- How many flow runs wait, and how many the request in flight carries. -/
structure Counted (a : Agent) : Prop where
  settled : a.settled ≤ a.produced
  idle : a.inFlight = none → a.pending.runs.length = min maxPendingFlowRuns a.unsettled
  busy : ∀ req ∈ a.inFlight, a.settled ≤ a.builtAt ∧ a.builtAt ≤ a.produced ∧
    req.flowRuns.length = min maxPendingFlowRuns (a.builtAt - a.settled) ∧
    a.pending.runs.length = min maxPendingFlowRuns (a.produced - a.builtAt)

theorem counted_step (h : a.Counted) (hstep : a.step cfg e = some a') : a'.Counted := by
  cases e with
  | batcher e =>
    obtain ⟨e', b, -, -, rfl⟩ := step_batcher hstep
    exact ⟨h.settled, h.idle, h.busy⟩
  | produce run =>
    cases hstep
    have hsettled := h.settled
    refine ⟨?_, ?_, ?_⟩
    · show a.settled ≤ a.produced + 1
      omega
    · intro hnone
      have hlen := PendingFlowRuns.length_writeRun (h.idle hnone) (a.produced, run)
      have hnext : a.unsettled + 1 = a.produced + 1 - a.settled := by
        unfold unsettled
        omega
      rwa [hnext] at hlen
    · intro req hreq
      obtain ⟨hbuilt, hproduced, hruns, hlen⟩ := h.busy req hreq
      have hlen' := PendingFlowRuns.length_writeRun hlen (a.produced, run)
      have hnext : a.produced - a.builtAt + 1 = a.produced + 1 - a.builtAt := by omega
      rw [hnext] at hlen'
      exact ⟨hbuilt, Nat.le_succ_of_le hproduced, hruns, hlen'⟩
  | post =>
    obtain ⟨-, hnone, ⟨b, -, -, rfl⟩ | ⟨-, rfl⟩⟩ := step_post hstep
    · exact ⟨h.settled, h.idle, h.busy⟩
    · refine ⟨h.settled, fun hnone => (by cases hnone), ?_⟩
      intro req hreq
      obtain rfl : a.request = req := Option.some.inj hreq
      refine ⟨h.settled, Nat.le_refl _, h.idle hnone, ?_⟩
      show 0 = min maxPendingFlowRuns (a.produced - a.produced)
      omega
  | send =>
    obtain ⟨req, -, rfl⟩ := step_send hstep
    exact ⟨h.settled, h.idle, h.busy⟩
  | handle i env =>
    obtain ⟨req, plane, reply, -, -, rfl⟩ := step_handle hstep
    exact ⟨h.settled, h.idle, h.busy⟩
  | acknowledged =>
    obtain ⟨req, b, hreq, -, -, rfl⟩ := step_acknowledged hstep
    obtain ⟨-, hproduced, -, hlen⟩ := h.busy req hreq
    exact ⟨hproduced, fun _ => hlen, fun req hreq => (by cases hreq)⟩
  | giveUp =>
    obtain ⟨req, b, hreq, -, rfl⟩ := step_giveUp hstep
    obtain ⟨hbuilt, hproduced, hruns, hlen⟩ := h.busy req hreq
    refine ⟨h.settled, fun _ => ?_, fun req hreq => (by cases hreq)⟩
    show (a.pending.restore req.flowRuns).runs.length =
      min maxPendingFlowRuns (a.produced - a.settled)
    rw [PendingFlowRuns.length_restore hlen, hruns]
    omega
  | forget id =>
    cases hstep
    exact ⟨h.settled, h.idle, h.busy⟩

/-- A request is built only while at most 256 flow runs were queued since the last
confirmed one was, and for at most 10000 results. -/
def Paced (a : Agent) : AgentEvent → Prop
  | .post => a.batcher.buffer ≠ [] →
    a.unsettled ≤ ingestMaxFlowRuns ∧ a.batcher.buffer.length ≤ ingestMaxBatch
  | _ => True

instance (a : Agent) : DecidablePred a.Paced
  | .post => inferInstanceAs (Decidable (_ → _))
  | .batcher _ | .produce _ | .send | .handle _ _ | .acknowledged | .giveUp | .forget _ =>
    inferInstanceAs (Decidable True)

end Agent

end Uptimepage
