import Uptimepage.Agent.Retries

/-!
# No result is stored twice

Two routes lead from the batcher to the results table.  On the control plane the batcher
writes through the ClickHouse sink (`Direct`); on an agent it writes through the ingest
endpoint (`Agent`).  Each route resends on its own, and each of these resends is harmless:
the sink repeats an identical block, and the endpoint knows the batch id.
-/

namespace Uptimepage

open Async

/-- The batcher and the ClickHouse sink of one control plane.  `unacked` are the results
that a write has stored though it was reported as failed, since the last write that was
not. -/
structure Direct where
  batcher : Batcher (Nat × CheckResult)
  table : DedupTable CheckResultRow
  unacked : List Nat
deriving DecidableEq

inductive DirectEvent
  | batcher (e : BatcherEvent CheckResult)
  | write (ttl : OrgTtlDays) (attempts : List InsertOutcome)

namespace Direct

def start : Direct where
  batcher := .start
  table := .empty
  unacked := []

def step (cfg : AgentConfig) (s : Direct) : DirectEvent → Option Direct
  | .batcher e => do
    let e ← e.numbered s.batcher.received.length
    let b ← s.batcher.step cfg.batcher e
    return { s with batcher := b }
  | .write ttl attempts => do
    let (table, ok) := writeBatchInner ttl cfg.identity.region cfg.identity.agentId s.table
      s.batcher.buffer attempts
    let b ← s.batcher.step cfg.batcher (.wrote ok)
    return { batcher := b, table := table
             unacked := if ok then [] else s.unacked ++ s.table.since table }

/-- After a failed write that was applied, what is still buffered of it is sent again as a
block the table remembers, or not applied. -/
def Resent (cfg : AgentConfig) (s : Direct) : DirectEvent → Prop
  | .batcher _ => True
  | .write ttl attempts =>
    DedupTable.lands attempts = true → (∃ r ∈ s.batcher.buffer, r.1 ∈ s.unacked) →
      (resultBlock ttl cfg.identity.region cfg.identity.agentId s.batcher.buffer).map Prod.snd ∈
        s.table.recent

instance (cfg : AgentConfig) (s : Direct) : DecidablePred (s.Resent cfg)
  | .batcher _ => inferInstanceAs (Decidable True)
  | .write _ _ => inferInstanceAs (Decidable (_ → _ → _))

/-- What is stored and still buffered, a failed write has stored. -/
structure Sound (s : Direct) : Prop where
  numbered : s.batcher.Numbered
  stored : ∀ n ∈ s.table.items, n < s.batcher.received.length
  buffered : ∀ n ∈ s.batcher.buffer.map Prod.fst, n ∈ s.table.items → n ∈ s.unacked
  unacked : ∀ n ∈ s.unacked, n ∈ s.table.items
  once : s.table.Once

end Direct

theorem writeBatchInner_once_iff (ttl : OrgTtlDays) (region agentId : String)
    {table : DedupTable CheckResultRow} (ht : table.Once) {results : List (Nat × CheckResult)}
    (hnodup : (results.map Prod.fst).Nodup) (attempts : List InsertOutcome) :
    (writeBatchInner ttl region agentId table results attempts).1.Once ↔
      table.Resendable (resultBlock ttl region agentId results) attempts := by
  unfold writeBatchInner
  split
  · next hempty =>
    subst hempty
    refine iff_of_true ht fun _ => .inr fun n hn => ?_
    cases hn
  · exact DedupTable.send_once_iff dedupWindow_pos ht (by rwa [resultBlock_items]) attempts

namespace Direct

variable {cfg : AgentConfig} {s s' : Direct} {e : DirectEvent}

theorem Sound.resent_iff (h : s.Sound) (ttl : OrgTtlDays) (attempts : List InsertOutcome) :
    s.table.Resendable
        (resultBlock ttl cfg.identity.region cfg.identity.agentId s.batcher.buffer) attempts ↔
      s.Resent cfg (.write ttl attempts) := by
  have hshared : (∃ n ∈ s.batcher.buffer.map Prod.fst, n ∈ s.table.items) ↔
      ∃ r ∈ s.batcher.buffer, r.1 ∈ s.unacked := by
    constructor
    · rintro ⟨n, hn, hstored⟩
      obtain ⟨r, hr, rfl⟩ := List.mem_map.mp hn
      exact ⟨r, hr, h.buffered _ hn hstored⟩
    · rintro ⟨r, hr, hunacked⟩
      exact ⟨r.1, List.mem_map_of_mem hr, h.unacked _ hunacked⟩
  rw [DedupTable.resendable_iff, Resent, resultBlock_items, hshared]

theorem sound_batcher {e : BatcherEvent CheckResult} {e' : BatcherEvent (Nat × CheckResult)}
    {b : Batcher (Nat × CheckResult)} (h : s.Sound)
    (he : e.numbered s.batcher.received.length = some e')
    (hb : s.batcher.step cfg.batcher e' = some b) :
    ({ s with batcher := b } : Direct).Sound := by
  have hgrown : s.batcher.received.length ≤ b.received.length := by
    rw [(Batcher.step_received hb).1, List.length_append]
    exact Nat.le_add_right _ _
  refine ⟨h.numbered.step_numbered he hb, fun n hn => Nat.lt_of_lt_of_le (h.stored n hn) hgrown,
    fun n hn hstored => ?_, h.unacked, h.once⟩
  rcases Batcher.step_numbered_mem he hb hn with hold | rfl
  · exact h.buffered n hold hstored
  · exact absurd (h.stored _ hstored) (Nat.lt_irrefl _)

theorem sound_write {table : DedupTable CheckResultRow} {ok : Bool}
    {b : Batcher (Nat × CheckResult)} (h : s.Sound) (honce : table.Once)
    (hgrows : s.table.items <+: table.items)
    (hmine : ∀ n ∈ s.table.since table, n ∈ s.batcher.buffer.map Prod.fst)
    (hb : s.batcher.step cfg.batcher (.wrote ok) = some b) :
    ({ batcher := b, table := table
       unacked := if ok then [] else s.unacked ++ s.table.since table } : Direct).Sound := by
  have hitems := DedupTable.items_eq_append_since hgrows
  have hreceived : b.received = s.batcher.received := by
    rw [(Batcher.step_received hb).1]
    exact List.append_nil _
  refine ⟨h.numbered.step_wrote hb, fun n hn => ?_, fun n hn hstored => ?_, fun n hn => ?_, honce⟩
  · simp only [hitems, hreceived] at hn ⊢
    rcases List.mem_append.mp hn with hold | hnew
    · exact h.stored n hold
    · exact h.numbered.lt (hmine n hnew)
  · cases ok with
    | true =>
      rw [Batcher.buffer_of_accepted hb] at hn
      cases hn
    | false =>
      have hold : n ∈ s.batcher.buffer.map Prod.fst := by
        obtain ⟨r, hr, rfl⟩ := List.mem_map.mp hn
        rcases Batcher.mem_buffer_of_step hb hr with hr | hr
        · exact List.mem_map_of_mem hr
        · cases hr
      simp only [hitems] at hstored
      exact (List.mem_append.mp hstored).elim
        (fun hs => List.mem_append_left _ (h.buffered n hold hs)) (List.mem_append_right _)
  · cases ok with
    | true => cases hn
    | false =>
      simp only [hitems]
      exact (List.mem_append.mp hn).elim
        (fun hu => List.mem_append_left _ (h.unacked n hu)) (List.mem_append_right _)

theorem once_iff_resent (h : s.Sound) (hstep : s.step cfg e = some s') :
    s'.table.Once ↔ s.Resent cfg e := by
  cases e with
  | batcher e =>
    obtain ⟨e', -, hstep⟩ := Option.bind_eq_some_iff.mp hstep
    obtain ⟨b, -, hstep⟩ := Option.bind_eq_some_iff.mp hstep
    cases hstep
    exact iff_of_true h.once trivial
  | write ttl attempts =>
    obtain ⟨b, -, hstep⟩ := Option.bind_eq_some_iff.mp hstep
    cases hstep
    exact (writeBatchInner_once_iff ttl _ _ h.once h.numbered.nodup attempts).trans
      (h.resent_iff ttl attempts)

theorem sound_step (h : s.Sound) (hresent : s.Resent cfg e) (hstep : s.step cfg e = some s') :
    s'.Sound := by
  have honce := (once_iff_resent h hstep).mpr hresent
  cases e with
  | batcher e =>
    obtain ⟨e', he', hstep⟩ := Option.bind_eq_some_iff.mp hstep
    obtain ⟨b, hb, hstep⟩ := Option.bind_eq_some_iff.mp hstep
    cases hstep
    exact sound_batcher h he' hb
  | write ttl attempts =>
    obtain ⟨b, hb, hstep⟩ := Option.bind_eq_some_iff.mp hstep
    cases hstep
    obtain ⟨hgrows, hmine⟩ := writeBatchInner_grows ttl cfg.identity.region
      cfg.identity.agentId s.table s.batcher.buffer attempts
    exact sound_write h honce hgrows hmine hb

theorem sound_start : start.Sound := by
  refine ⟨Batcher.numbered_start, ?_, ?_, ?_, List.nodup_nil⟩ <;> intro n hn <;> cases hn

end Direct

namespace Agent

/-- What the batcher keeps while requests come and go: the request under way carries the
whole buffer, and nothing of a confirmed one is buffered again. -/
structure Drained (a : Agent) : Prop where
  numbered : a.batcher.Numbered
  posted : ∀ req ∈ a.posted, req.resultNumbers.Nodup
  inFlight : ∀ req ∈ a.inFlight, req.results = a.batcher.buffer ∧
    ∃ leaving, a.batcher.phase = .flushing leaving
  confirmed : ∀ req ∈ a.confirmed, ∀ n ∈ req.resultNumbers,
    n < a.batcher.received.length ∧ n ∉ a.batcher.buffer.map Prod.fst

variable {cfg : AgentConfig} {a a' : Agent} {e : AgentEvent}

theorem drained_start : start.Drained := by
  refine ⟨Batcher.numbered_start, ?_, ?_, ?_⟩ <;> intro req hreq <;> cases hreq

theorem drained_wrote {b : Batcher (Nat × CheckResult)} {ok : Bool} (h : a.Drained)
    (hb : a.batcher.step cfg.batcher (.wrote ok) = some b) :
    b.Numbered ∧ ∀ req ∈ a.confirmed, ∀ n ∈ req.resultNumbers,
      n < b.received.length ∧ n ∉ b.buffer.map Prod.fst := by
  refine ⟨h.numbered.step_wrote hb, fun req hreq n hn => ?_⟩
  obtain ⟨hlt, hout⟩ := h.confirmed req hreq n hn
  refine ⟨?_, fun hin => hout ?_⟩
  · rw [(Batcher.step_received hb).1, List.length_append]
    exact Nat.lt_add_right _ hlt
  · obtain ⟨r, hr, rfl⟩ := List.mem_map.mp hin
    rcases Batcher.mem_buffer_of_step hb hr with hr | hr
    · exact List.mem_map_of_mem hr
    · cases hr

theorem drained_step (h : a.Drained) (hstep : a.step cfg e = some a') : a'.Drained := by
  cases e with
  | batcher e =>
    obtain ⟨e', b, he', hb, rfl⟩ := step_batcher hstep
    refine ⟨h.numbered.step_numbered he' hb, h.posted, fun req hreq => ?_,
      fun req hreq n hn => ?_⟩
    · -- a batcher that awaits the sink takes nothing else
      obtain ⟨-, leaving, hphase⟩ := h.inFlight req hreq
      cases e <;> cases he' <;> simp [Batcher.step, hphase] at hb
    · obtain ⟨hlt, hout⟩ := h.confirmed req hreq n hn
      refine ⟨?_, fun hin => ?_⟩
      · show n < b.received.length
        rw [(Batcher.step_received hb).1, List.length_append]
        exact Nat.lt_add_right _ hlt
      · rcases Batcher.step_numbered_mem he' hb hin with hold | rfl
        · exact hout hold
        · exact Nat.lt_irrefl _ hlt
  | produce run | forget id =>
    cases hstep
    exact { h with }
  | post =>
    obtain ⟨hphase, hnone, ⟨b, -, hb, rfl⟩ | ⟨-, rfl⟩⟩ := step_post hstep
    · obtain ⟨hnumbered, hconfirmed⟩ := drained_wrote h hb
      refine ⟨hnumbered, h.posted, fun req hreq => ?_, hconfirmed⟩
      simp [hnone] at hreq
    · refine { h with posted := fun req hreq => ?_, inFlight := fun req hreq => ?_ }
      · rcases List.mem_append.mp hreq with hold | hnew
        · exact h.posted req hold
        · rw [List.mem_singleton.mp hnew]
          exact h.numbered.nodup
      · obtain rfl : a.request = req := Option.some.inj hreq
        exact ⟨rfl, hphase⟩
  | send =>
    obtain ⟨req, -, rfl⟩ := step_send hstep
    exact { h with }
  | handle i env =>
    obtain ⟨req, plane, reply, -, -, rfl⟩ := step_handle hstep
    exact { h with }
  | acknowledged =>
    obtain ⟨req, b, hreq, -, hb, rfl⟩ := step_acknowledged hstep
    obtain ⟨hnumbered, hconfirmed⟩ := drained_wrote h hb
    refine ⟨hnumbered, h.posted, fun r hr => (by cases hr), fun r hr n hn => ?_⟩
    rcases List.mem_append.mp hr with hold | hnew
    · exact hconfirmed r hold n hn
    · rw [List.mem_singleton.mp hnew, IngestRequest.resultNumbers,
        (h.inFlight req hreq).1] at hn
      refine ⟨?_, fun hin => ?_⟩
      · show n < b.received.length
        rw [(Batcher.step_received hb).1, List.length_append]
        exact Nat.lt_add_right _ (h.numbered.lt hn)
      · simp only [Batcher.buffer_of_accepted hb] at hin
        cases hin
  | giveUp =>
    obtain ⟨req, b, -, hb, rfl⟩ := step_giveUp hstep
    obtain ⟨hnumbered, hconfirmed⟩ := drained_wrote h hb
    exact ⟨hnumbered, h.posted, fun r hr => (by cases hr), hconfirmed⟩

namespace Traced

/-- Results a copy stored before are written again only as a block the table remembers. -/
def Resent (cfg : AgentConfig) (t : Traced) : AgentEvent → Prop
  | .handle i env =>
    ∀ req ∈ t.agent.wire[i]?, ∀ assigned ∈ env.assigned, req.Admissible →
      req.batchId ∉ t.agent.plane.agentIngestDedup →
      DedupTable.lands env.resultAttempts = true →
      t.agent.Retries t.results req.batchId
        ((env.keptResults assigned req.results).map Prod.fst) →
      (resultBlock env.resultTtl cfg.identity.region cfg.identity.agentId
        (env.keptResults assigned req.results)).map Prod.snd ∈ t.agent.plane.results.recent
  | _ => True

instance (cfg : AgentConfig) (t : Traced) : DecidablePred (t.Resent cfg)
  | .handle _ _ => inferInstanceAs (Decidable (∀ _ ∈ _, ∀ _ ∈ _, _ → _ → _ → _ → _))
  | .batcher _ | .produce _ | .post | .send | .acknowledged | .giveUp | .forget _ =>
    inferInstanceAs (Decidable True)

structure Sound (t : Traced) : Prop where
  issued : t.agent.Issued
  drained : t.agent.Drained
  sharing : t.agent.Sharing IngestRequest.resultNumbers
  recorded : t.Recorded
  once : t.agent.plane.results.Once

variable {t t' : Traced}

theorem keptResults_sublist (env : IngestEnv) (assigned : Uuid → Option OrgId)
    (results : List (Nat × CheckResult)) :
    ((env.keptResults assigned results).map Prod.fst).Sublist (results.map Prod.fst) :=
  retainResults_sublist _ _ _

theorem Sound.resendable_iff (h : t.Sound) (env : IngestEnv) (assigned : Uuid → Option OrgId)
    {req : IngestRequest} (hposted : t.agent.posted[req.batchId]? = some req) :
    t.agent.plane.results.Resendable (resultBlock env.resultTtl cfg.identity.region
        cfg.identity.agentId (env.keptResults assigned req.results)) env.resultAttempts ↔
      (DedupTable.lands env.resultAttempts = true →
        t.agent.Retries t.results req.batchId
          ((env.keptResults assigned req.results).map Prod.fst) →
        (resultBlock env.resultTtl cfg.identity.region cfg.identity.agentId
          (env.keptResults assigned req.results)).map Prod.snd ∈ t.agent.plane.results.recent) := by
  have hretries := retries_iff h.sharing h.recorded.results hposted
    (keptResults_sublist env assigned req.results).subset
  rw [DedupTable.resendable_iff, resultBlock_items, hretries]

theorem handle_once_iff {i : Nat} {env : IngestEnv} (h : t.Sound)
    (hstep : t.agent.step cfg (.handle i env) = some a') :
    a'.plane.results.Once ↔ t.Resent cfg (.handle i env) := by
  obtain ⟨req, plane, reply, hreq, hingest, rfl⟩ := step_handle hstep
  have hposted := h.issued.wire req (List.mem_of_getElem? hreq)
  have hmem := List.mem_of_getElem? hposted
  have hnodup := h.drained.posted req hmem
  simp only [Resent, hreq, Option.mem_some_iff, forall_eq']
  rcases ingestResults_cases hingest with ⟨rfl, hnot, -⟩ | ⟨assigned, hproc, -, hresults, -⟩
  · refine iff_of_true h.once fun assigned hassigned hadm hnew => ?_
    exact absurd ⟨hadm, hnew, h.issued.posted req hmem, hassigned⟩ (hnot assigned)
  · obtain ⟨hadm, hnew, -, hassigned⟩ := hproc
    rw [hresults, writeBatchInner_once_iff _ _ _ h.once
      (hnodup.sublist (keptResults_sublist env assigned req.results)),
      h.resendable_iff env assigned hposted, hassigned]
    simp only [Option.mem_some_iff, forall_eq']
    exact ⟨fun hre _ _ => hre, fun hre => hre hadm hnew⟩

theorem once_iff_resent (h : t.Sound) (hstep : t.step cfg e = some t') :
    t'.agent.plane.results.Once ↔ t.Resent cfg e := by
  have hagent := step_agent hstep
  cases e with
  | handle i env => exact handle_once_iff h hagent
  | batcher _ | produce _ | post | send | acknowledged | giveUp | forget _ =>
    obtain ⟨-, hresults, -⟩ := step_tables hagent (by simp)
    rw [hresults]
    exact iff_of_true h.once trivial

theorem sound_start : start.Sound :=
  ⟨issued_start, drained_start, sharing_start, recorded_start, List.nodup_nil⟩

theorem sound_step (h : t.Sound) (hresent : t.Resent cfg e) (hstep : t.step cfg e = some t') :
    t'.Sound := by
  have hagent := step_agent hstep
  refine ⟨issued_step h.issued hagent, drained_step h.drained hagent,
    sharing_step h.sharing h.issued (fun req hreq n hn hbuf => ?_) hagent,
    recorded_step h.recorded h.issued hstep, (once_iff_resent h hstep).mpr hresent⟩
  exact (h.drained.confirmed req hreq n hn).2 hbuf

end Traced

end Agent

/-- **No result is stored twice.**  On both routes: along every run in which what a failed
or given-up write has stored is sent again only as a block the table remembers, no result
has two rows, and the next step keeps it so exactly when it does the same. -/
theorem stored_once_iff_resent (cfg : AgentConfig) :
    (∀ s, Run (Direct.step cfg) (Direct.Resent cfg) Direct.start s →
      s.table.Once ∧ ∀ e s', s.step cfg e = some s' → (s'.table.Once ↔ s.Resent cfg e)) ∧
    (∀ t, Run (Agent.Traced.step cfg) (Agent.Traced.Resent cfg) Agent.Traced.start t →
      t.agent.plane.results.Once ∧ ∀ e t', t.step cfg e = some t' →
        (t'.agent.plane.results.Once ↔ t.Resent cfg e)) := by
  constructor
  · intro s hrun
    have hs : s.Sound := hrun.invariant Direct.sound_start fun _ _ _ hu hresent hstep =>
      Direct.sound_step hu hresent hstep
    exact ⟨hs.once, fun e s' hstep => Direct.once_iff_resent hs hstep⟩
  · intro t hrun
    have ht : t.Sound := hrun.invariant Agent.Traced.sound_start fun _ _ _ hu hresent hstep =>
      Agent.Traced.sound_step hu hresent hstep
    exact ⟨ht.once, fun e t' hstep => Agent.Traced.once_iff_resent ht hstep⟩

/-! ## Runs -/

section Runs

open Agent.Sample

/-- On either route the first write lands and is reported as failed, and what was sent is
sent again as it was. -/
theorem stored_once_iff_resent_unacked :
    (∃ s, Run (Direct.step cfg) (Direct.Resent cfg) Direct.start s ∧ s.table.items = [0] ∧
      s.batcher.buffer = [] ∧ s.table.Once) ∧
    (∃ t, Run (Agent.Traced.step cfg) (Agent.Traced.Resent cfg) Agent.Traced.start t ∧
      t.agent.plane.results.items = [0] ∧ t.agent.batcher.buffer = [] ∧
      t.agent.plane.results.Once) := by
  constructor
  · let events : List DirectEvent := [.batcher (.received (result 1)), .write ttl [.unacked],
      .batcher .tick, .write ttl [.refused, .acked]]
    obtain ⟨s, hrun, hs⟩ : ∃ s : Direct,
        Run (Direct.step cfg) (fun s e => s.Resent cfg e) .start s ∧
          s.table.items = [0] ∧ s.batcher.buffer = [] :=
      exists_guarded_run events (by decide +kernel)
    obtain ⟨hitems, hbuffer⟩ := hs
    exact ⟨s, hrun, hitems, hbuffer, ((stored_once_iff_resent cfg).1 s hrun).1⟩
  · let events : List AgentEvent := [.batcher (.received (result 1)), .post, .send,
      .handle 0 (env [.unacked]), .send, .handle 0 (env [.acked]), .acknowledged]
    obtain ⟨t, hrun, ht⟩ : ∃ t : Agent.Traced,
        Run (Agent.Traced.step cfg) (fun t e => t.Resent cfg e) .start t ∧
          t.agent.plane.results.items = [0] ∧ t.agent.batcher.buffer = [] :=
      exists_guarded_run events (by decide +kernel)
    obtain ⟨hitems, hbuffer⟩ := ht
    exact ⟨t, hrun, hitems, hbuffer, ((stored_once_iff_resent cfg).2 t hrun).1⟩

/-- A write that landed and was reported as failed, a second result, and a flush of both:
the first result has two rows.  On either route. -/
theorem stored_twice :
    (∃ s, Run (Direct.step cfg) (fun _ _ => True) Direct.start s ∧ ¬ s.table.Once) ∧
    (∃ a, Run (Agent.step cfg) (fun _ _ => True) Agent.start a ∧ ¬ a.plane.results.Once) := by
  constructor
  · let events : List DirectEvent := [.batcher (.received (result 1)), .write ttl [.unacked],
      .batcher (.received (result 2)), .write ttl [.acked]]
    obtain ⟨s, hrun, hs⟩ : ∃ s : Direct, Run (Direct.step cfg) (fun _ _ => True) .start s ∧
        s.table.items = [0, 0, 1] :=
      exists_run_satisfying events (by decide +kernel)
    refine ⟨s, hrun, ?_⟩
    rw [DedupTable.Once, hs]
    decide
  · let events : List AgentEvent := [.batcher (.received (result 1)), .post, .send,
      .handle 0 (env [.acked]), .giveUp, .batcher (.received (result 2)), .post, .send,
      .handle 0 (env [.acked]), .acknowledged]
    obtain ⟨a, hrun, ha⟩ : ∃ a : Agent, Run (Agent.step cfg) (fun _ _ => True) .start a ∧
        a.plane.results.items = [0, 0, 1] :=
      exists_run_satisfying events (by decide +kernel)
    refine ⟨a, hrun, ?_⟩
    rw [DedupTable.Once, ha]
    decide

end Runs

end Uptimepage
