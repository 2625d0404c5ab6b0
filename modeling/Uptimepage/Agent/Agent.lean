import Mathlib.Data.Option.Basic
import Uptimepage.Agent.Ingest
import Uptimepage.Pipeline.Batcher

/-!
# A regional agent and its control plane

`agent/mod.rs`: the batcher, the flow runs that wait for a batch to ride on
(`PendingFlowRuns`), and `AgentResultSink::write_batch` against the ingest endpoint.  A
write builds one request and puts copies of it on the wire until a success comes back or
the retry budget is spent; the control plane may handle a copy at any time, also after the
agent gave up, or never.  Workers queue flow runs all the while.
-/

namespace Uptimepage

open Async

def maxPendingFlowRuns : Nat := 512

/-- `PendingFlowRuns`, with the `flow_run_buffer_full` count. -/
structure PendingFlowRuns where
  runs : List (Nat × FlowRunRecord)
  dropped : Nat
deriving DecidableEq

namespace PendingFlowRuns

def writeRun (q : PendingFlowRuns) (run : Nat × FlowRunRecord) : PendingFlowRuns :=
  if maxPendingFlowRuns ≤ q.runs.length then
    { runs := q.runs.tail ++ [run], dropped := q.dropped + 1 }
  else { q with runs := q.runs ++ [run] }

/-- One turn of the loop of `restore`. -/
def putBack (run : Nat × FlowRunRecord) (q : PendingFlowRuns) : PendingFlowRuns :=
  if maxPendingFlowRuns ≤ q.runs.length then
    { runs := run :: q.runs.dropLast, dropped := q.dropped + 1 }
  else { q with runs := run :: q.runs }

/-- `for run in runs.into_iter().rev()`: the last run goes back first. -/
def restore (q : PendingFlowRuns) (runs : List (Nat × FlowRunRecord)) : PendingFlowRuns :=
  runs.foldr putBack q

end PendingFlowRuns

structure AgentConfig where
  batcher : BatcherConfig
  identity : AgentIdentity

/-- `wire` holds the copies under way and `replies` the batches a success is under way
for. -/
structure Agent where
  batcher : Batcher (Nat × CheckResult)
  pending : PendingFlowRuns
  produced : Nat
  builtAt : Nat
  settled : Nat
  inFlight : Option IngestRequest
  posted : List IngestRequest
  confirmed : List IngestRequest
  wire : List IngestRequest
  replies : List Uuid
  plane : ControlPlane
deriving DecidableEq

inductive AgentEvent
  | batcher (e : BatcherEvent CheckResult)
  | produce (run : FlowRunRecord)
  | post
  | send
  | handle (i : Nat) (env : IngestEnv)
  | acknowledged
  | giveUp
  | forget (id : Uuid)

namespace Agent

def start : Agent where
  batcher := .start
  pending := { runs := [], dropped := 0 }
  produced := 0
  builtAt := 0
  settled := 0
  inFlight := none
  posted := []
  confirmed := []
  wire := []
  replies := []
  plane := { agentIngestDedup := [], results := .empty, flowRuns := .empty }

/-- The request `write_batch` builds: the buffer, every waiting flow run, a fresh id. -/
def request (a : Agent) : IngestRequest where
  batchId := a.posted.length
  results := a.batcher.buffer
  flowRuns := a.pending.runs

def step (cfg : AgentConfig) (a : Agent) : AgentEvent → Option Agent
  | .batcher e => do
    let e ← e.numbered a.batcher.received.length
    let b ← a.batcher.step cfg.batcher e
    return { a with batcher := b }
  | .produce run =>
    some { a with pending := a.pending.writeRun (a.produced, run), produced := a.produced + 1 }
  | .post =>
    match a.batcher.phase, a.inFlight with
    | .flushing _, none =>
      if a.batcher.buffer = [] then
        (a.batcher.step cfg.batcher (.wrote true)).map fun b => { a with batcher := b }
      else
        -- `take` drains the queue; the request keeps the runs until it ends
        some { a with pending := { a.pending with runs := [] }, inFlight := some a.request,
                      posted := a.posted ++ [a.request], builtAt := a.produced }
    | _, _ => none
  | .send => a.inFlight.map fun req => { a with wire := a.wire ++ [req] }
  | .handle i env => do
    let req ← a.wire[i]?
    let (plane, reply) := ingestResults cfg.identity env a.plane req
    return { a with wire := a.wire.eraseIdx i, plane := plane
                    replies := if reply.isSuccess then req.batchId :: a.replies else a.replies }
  | .acknowledged => do
    let req ← a.inFlight
    guard (req.batchId ∈ a.replies)
    let b ← a.batcher.step cfg.batcher (.wrote true)
    return { a with batcher := b, inFlight := none, confirmed := a.confirmed ++ [req],
                    settled := a.builtAt }
  | .giveUp => do
    let req ← a.inFlight
    let b ← a.batcher.step cfg.batcher (.wrote false)
    return { a with batcher := b, inFlight := none, pending := a.pending.restore req.flowRuns }
  | .forget id =>
    some { a with plane :=
      { a.plane with agentIngestDedup := a.plane.agentIngestDedup.filter (· ≠ id) } }

/-! ## The steps, one by one -/

section Steps

variable {cfg : AgentConfig} {a a' : Agent}

theorem step_batcher {e : BatcherEvent CheckResult} (h : a.step cfg (.batcher e) = some a') :
    ∃ e' b, e.numbered a.batcher.received.length = some e' ∧
      a.batcher.step cfg.batcher e' = some b ∧ a' = { a with batcher := b } := by
  simp only [step] at h
  obtain ⟨e', he', h⟩ := Option.bind_eq_some_iff.mp h
  obtain ⟨b, hb, h⟩ := Option.bind_eq_some_iff.mp h
  cases h
  exact ⟨e', b, he', hb, rfl⟩

theorem step_post (h : a.step cfg .post = some a') :
    (∃ leaving, a.batcher.phase = .flushing leaving) ∧ a.inFlight = none ∧
      ((∃ b, a.batcher.buffer = [] ∧ a.batcher.step cfg.batcher (.wrote true) = some b ∧
          a' = { a with batcher := b }) ∨
        a.batcher.buffer ≠ [] ∧
          a' = { a with pending := { a.pending with runs := [] }, inFlight := some a.request,
                        posted := a.posted ++ [a.request], builtAt := a.produced }) := by
  simp only [step] at h
  split at h
  · next leaving hphase hnone =>
    refine ⟨⟨leaving, hphase⟩, hnone, ?_⟩
    split at h
    · next hempty =>
      obtain ⟨b, hb, rfl⟩ := Option.map_eq_some_iff.mp h
      exact .inl ⟨b, hempty, hb, rfl⟩
    · next hsome =>
      cases h
      exact .inr ⟨hsome, rfl⟩
  · cases h

theorem step_send (h : a.step cfg .send = some a') :
    ∃ req, a.inFlight = some req ∧ a' = { a with wire := a.wire ++ [req] } := by
  obtain ⟨req, hreq, rfl⟩ := Option.map_eq_some_iff.mp h
  exact ⟨req, hreq, rfl⟩

theorem step_handle {i : Nat} {env : IngestEnv} (h : a.step cfg (.handle i env) = some a') :
    ∃ req plane reply, a.wire[i]? = some req ∧
      ingestResults cfg.identity env a.plane req = (plane, reply) ∧
      a' = { a with wire := a.wire.eraseIdx i, plane := plane
                    replies := if reply.isSuccess then req.batchId :: a.replies else a.replies } := by
  simp only [step] at h
  obtain ⟨req, hreq, h⟩ := Option.bind_eq_some_iff.mp h
  cases h
  exact ⟨req, _, _, hreq, rfl, rfl⟩

theorem step_acknowledged (h : a.step cfg .acknowledged = some a') :
    ∃ req b, a.inFlight = some req ∧ req.batchId ∈ a.replies ∧
      a.batcher.step cfg.batcher (.wrote true) = some b ∧
      a' = { a with batcher := b, inFlight := none, confirmed := a.confirmed ++ [req],
                    settled := a.builtAt } := by
  simp only [step] at h
  obtain ⟨req, hreq, h⟩ := Option.bind_eq_some_iff.mp h
  obtain ⟨_, hreply, h⟩ := Option.bind_eq_some_iff.mp h
  obtain ⟨b, hb, h⟩ := Option.bind_eq_some_iff.mp h
  cases h
  exact ⟨req, b, hreq, (Option.guard_eq_some' _).mp hreply, hb, rfl⟩

theorem step_giveUp (h : a.step cfg .giveUp = some a') :
    ∃ req b, a.inFlight = some req ∧ a.batcher.step cfg.batcher (.wrote false) = some b ∧
      a' = { a with batcher := b, inFlight := none,
                    pending := a.pending.restore req.flowRuns } := by
  simp only [step] at h
  obtain ⟨req, hreq, h⟩ := Option.bind_eq_some_iff.mp h
  obtain ⟨b, hb, h⟩ := Option.bind_eq_some_iff.mp h
  cases h
  exact ⟨req, b, hreq, hb, rfl⟩

/-- Every request under way is the one its id was handed out for, and has results. -/
structure Issued (a : Agent) : Prop where
  posted : ∀ req ∈ a.posted, req.results ≠ []
  inFlight : ∀ req ∈ a.inFlight, a.posted[req.batchId]? = some req
  wire : ∀ req ∈ a.wire, a.posted[req.batchId]? = some req
  replies : ∀ id ∈ a.replies, id < a.posted.length
  consumed : ∀ id ∈ a.plane.agentIngestDedup, id < a.posted.length

theorem Issued.batchId_lt (_ : a.Issued) {req : IngestRequest}
    (h : a.posted[req.batchId]? = some req) : req.batchId < a.posted.length :=
  (List.getElem?_eq_some_iff.mp h).1

theorem issued_start : start.Issued := by
  refine ⟨?_, ?_, ?_, ?_, ?_⟩ <;> intro x hx <;> cases hx

theorem ingestResults_consumed_success {agent : AgentIdentity} {env : IngestEnv}
    {p p' : ControlPlane} {req : IngestRequest} {reply : IngestReply}
    (h : ingestResults agent env p req = (p', reply)) {id : Uuid}
    (hid : id ∈ p'.agentIngestDedup) :
    id ∈ p.agentIngestDedup ∨ id = req.batchId ∧ reply.isSuccess = true := by
  rcases ingestResults_cases h with ⟨rfl, -, -⟩ | ⟨assigned, -, -, -, hsame | ⟨hmore, hok⟩, -⟩
  · exact .inl hid
  · rw [hsame] at hid
    exact .inl hid
  · rw [hmore] at hid
    rcases List.mem_cons.mp hid with rfl | hold
    · exact .inr ⟨rfl, hok⟩
    · exact .inl hold

theorem issued_step {e : AgentEvent} (h : a.Issued) (hstep : a.step cfg e = some a') :
    a'.Issued := by
  cases e with
  | batcher e =>
    obtain ⟨e', b, -, -, rfl⟩ := step_batcher hstep
    exact { h with }
  | produce run =>
    cases hstep
    exact { h with }
  | post =>
    obtain ⟨-, -, ⟨b, -, -, rfl⟩ | ⟨hsome, rfl⟩⟩ := step_post hstep
    · exact { h with }
    · have hold : ∀ {id : Nat}, id < a.posted.length →
          id < (a.posted ++ [a.request]).length := by
        intro id hid
        rw [List.length_append]
        exact Nat.lt_add_right _ hid
      refine ⟨fun req hreq => ?_, fun req hreq => ?_, fun req hreq => ?_,
        fun id hid => hold (h.replies id hid), fun id hid => hold (h.consumed id hid)⟩
      · rcases List.mem_append.mp hreq with hmem | hnew
        · exact h.posted req hmem
        · rw [List.mem_singleton.mp hnew]
          exact hsome
      · obtain rfl : a.request = req := Option.some.inj hreq
        show (a.posted ++ [a.request])[a.posted.length]? = some a.request
        simp
      · have hreq' := h.wire req hreq
        show (a.posted ++ [a.request])[req.batchId]? = some req
        rw [List.getElem?_append_left (h.batchId_lt hreq')]
        exact hreq'
  | send =>
    obtain ⟨req, hreq, rfl⟩ := step_send hstep
    refine { h with wire := fun req' hreq' => ?_ }
    rcases List.mem_append.mp hreq' with hold | hnew
    · exact h.wire req' hold
    · rw [List.mem_singleton.mp hnew]
      exact h.inFlight req hreq
  | handle i env =>
    obtain ⟨req, plane, reply, hreq, hingest, rfl⟩ := step_handle hstep
    have hid := h.batchId_lt (h.wire req (List.mem_of_getElem? hreq))
    refine { h with wire := fun req' hreq' => ?_, replies := fun id hmem => ?_,
                    consumed := fun id hmem => ?_ }
    · exact h.wire req' (List.mem_of_mem_eraseIdx hreq')
    · simp only at hmem
      split at hmem
      · rcases List.mem_cons.mp hmem with rfl | hold
        · exact hid
        · exact h.replies id hold
      · exact h.replies id hmem
    · rcases ingestResults_consumed_success hingest hmem with hold | ⟨rfl, -⟩
      · exact h.consumed id hold
      · exact hid
  | acknowledged =>
    obtain ⟨req, b, -, -, -, rfl⟩ := step_acknowledged hstep
    exact { h with inFlight := fun req hreq => (by cases hreq) }
  | giveUp =>
    obtain ⟨req, b, -, -, rfl⟩ := step_giveUp hstep
    exact { h with inFlight := fun req hreq => (by cases hreq) }
  | forget id =>
    cases hstep
    exact { h with consumed := fun id' hid' => h.consumed id' (List.mem_of_mem_filter hid') }

end Steps

/-! ## A small agent to run -/

namespace Sample

def cfg : AgentConfig where
  batcher := { batchSize := 1 }
  identity := { region := "eu", agentId := "a1" }

def result (targetId : Uuid) : CheckResult where
  targetId := targetId
  orgId := 1
  timestamp := 0
  status := .up
  durationMs := 10
  dnsMs := none
  connectMs := none
  tlsMs := none
  ttfbMs := none
  responseCode := some 200
  responseSize := none
  diagnostic := none
  error := none

def flowRun : FlowRunRecord where
  orgId := 1
  targetId := 1
  timestamp := 0
  status := .up
  durationMs := 10
  error := none
  steps := []
  evidence := none

def ttl : OrgTtlDays := fun _ => { row := 30, evidence := 7 }

def env (resultAttempts : List InsertOutcome) : IngestEnv where
  now := 0
  assigned := some fun _ => some 1
  flowRunSink := true
  scrub := id
  flowTtl := ttl
  flowAttempts := [.acked]
  resultTtl := ttl
  resultAttempts := resultAttempts

end Sample

end Agent

end Uptimepage
