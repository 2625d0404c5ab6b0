import Uptimepage.Agent.Retries

/-!
# Flow runs survive retries

A flow run is queued, carried by a request, and put back when the request ends in an
error.  `Agent.Kept` follows each run through the queue: it waits, is carried, was carried
by a confirmed request, or was evicted and counted.
-/

namespace Uptimepage

open Async

namespace PendingFlowRuns

theorem writeRun_perm (q : PendingFlowRuns) (run : Nat × FlowRunRecord) :
    ∃ evicted, (q.writeRun run).dropped = q.dropped + evicted.length ∧
      ((q.writeRun run).runs ++ evicted).Perm (q.runs ++ [run]) := by
  unfold writeRun
  split
  · next hfull =>
    cases hq : q.runs with
    | nil =>
      rw [hq] at hfull
      exact absurd hfull (by decide)
    | cons oldest rest =>
      refine ⟨[oldest], rfl, ?_⟩
      rw [List.tail_cons]
      exact List.perm_append_comm
  · exact ⟨[], rfl, by simp⟩

theorem putBack_perm (q : PendingFlowRuns) (run : Nat × FlowRunRecord) :
    ∃ evicted, (putBack run q).dropped = q.dropped + evicted.length ∧
      ((putBack run q).runs ++ evicted).Perm (q.runs ++ [run]) := by
  unfold putBack
  split
  · next hfull =>
    have hne : q.runs ≠ [] := by
      intro hq
      rw [hq] at hfull
      exact absurd hfull (by decide)
    refine ⟨[q.runs.getLast hne], rfl, ?_⟩
    rw [List.cons_append, List.dropLast_append_getLast hne]
    exact (List.perm_append_singleton run q.runs).symm
  · refine ⟨[], rfl, ?_⟩
    rw [List.append_nil]
    exact (List.perm_append_singleton run q.runs).symm

theorem restore_perm (q : PendingFlowRuns) (runs : List (Nat × FlowRunRecord)) :
    ∃ evicted, (q.restore runs).dropped = q.dropped + evicted.length ∧
      ((q.restore runs).runs ++ evicted).Perm (q.runs ++ runs) := by
  induction runs with
  | nil => exact ⟨[], rfl, .refl _⟩
  | cons run rest ih =>
    obtain ⟨evicted, hcount, hperm⟩ := ih
    obtain ⟨one, hcount', hperm'⟩ := putBack_perm (q.restore rest) run
    refine ⟨one ++ evicted, ?_, ?_⟩
    · show (putBack run (q.restore rest)).dropped = _
      rw [hcount', hcount, List.length_append]
      omega
    · show ((putBack run (q.restore rest)).runs ++ (one ++ evicted)).Perm (q.runs ++ run :: rest)
      rw [← List.append_assoc]
      refine (hperm'.append_right evicted).trans ?_
      have hmove : ((q.restore rest).runs ++ [run] ++ evicted).Perm
          (run :: ((q.restore rest).runs ++ evicted)) := by
        rw [List.append_assoc]
        exact List.perm_middle
      refine hmove.trans ((hperm.cons run).trans ?_)
      exact List.perm_middle.symm

end PendingFlowRuns

namespace Agent

variable {cfg : AgentConfig} {a a' : Agent} {e : AgentEvent}

def carried (a : Agent) : List (Nat × FlowRunRecord) :=
  match a.inFlight with
  | none => []
  | some req => req.flowRuns

def delivered (a : Agent) : List (Nat × FlowRunRecord) :=
  a.confirmed.flatMap IngestRequest.flowRuns

/-- Where the flow runs queued so far are: every number is waiting, carried, delivered or
among the evicted ones the counter stands for, and in one place only. -/
def Kept (a : Agent) : Prop :=
  ∃ evicted : List (Nat × FlowRunRecord), evicted.length = a.pending.dropped ∧
    ((a.pending.runs ++ a.carried ++ a.delivered ++ evicted).map Prod.fst).Perm
      (List.range a.produced)

theorem kept_start : start.Kept := ⟨[], rfl, .refl _⟩

theorem Kept.of_perm (h : a.Kept) (more out : List (Nat × FlowRunRecord))
    {runs : List (Nat × FlowRunRecord)} {dropped produced : Nat}
    (hdropped : dropped = a.pending.dropped + out.length)
    (hproduced : (List.range a.produced ++ more.map Prod.fst).Perm (List.range produced))
    (hruns : (runs ++ out).Perm (a.pending.runs ++ a.carried ++ a.delivered ++ more)) :
    ∃ evicted : List (Nat × FlowRunRecord), evicted.length = dropped ∧
      ((runs ++ evicted).map Prod.fst).Perm (List.range produced) := by
  obtain ⟨evicted, hlen, hperm⟩ := h
  refine ⟨out ++ evicted, ?_, ?_⟩
  · rw [hdropped, ← hlen, List.length_append]
    omega
  · refine List.Perm.trans ?_ hproduced
    refine List.Perm.trans ?_ (hperm.append_right (more.map Prod.fst))
    rw [← List.map_append]
    refine List.Perm.map Prod.fst ?_
    classical
    rw [List.perm_iff_count] at hruns ⊢
    intro r
    have := hruns r
    simp only [List.count_append] at this ⊢
    omega

theorem kept_step (h : a.Kept) (hstep : a.step cfg e = some a') : a'.Kept := by
  have hsame : (List.range a.produced ++ ([] : List (Nat × FlowRunRecord)).map Prod.fst).Perm
      (List.range a.produced) := by simp
  cases e with
  | batcher e =>
    obtain ⟨e', b, -, -, rfl⟩ := step_batcher hstep
    exact h
  | produce run =>
    cases hstep
    obtain ⟨out, hcount, hperm⟩ := a.pending.writeRun_perm (a.produced, run)
    refine h.of_perm [(a.produced, run)] out hcount ?_ ?_
    · show (List.range a.produced ++ [a.produced]).Perm (List.range (a.produced + 1))
      rw [← List.range_succ]
    · show ((a.pending.writeRun (a.produced, run)).runs ++ a.carried ++ a.delivered ++ out).Perm _
      classical
      rw [List.perm_iff_count] at hperm ⊢
      intro r
      have := hperm r
      simp only [List.count_append] at this ⊢
      omega
  | post =>
    obtain ⟨-, hnone, ⟨b, -, -, rfl⟩ | ⟨-, rfl⟩⟩ := step_post hstep
    · exact h
    · refine h.of_perm [] [] rfl hsame ?_
      show (([] : List (Nat × FlowRunRecord)) ++ a.pending.runs ++ a.delivered ++ []).Perm
        (a.pending.runs ++ a.carried ++ a.delivered ++ [])
      have hcarried : a.carried = [] := by rw [carried, hnone]
      rw [hcarried]
      simp
  | send =>
    obtain ⟨req, -, rfl⟩ := step_send hstep
    exact h
  | handle i env =>
    obtain ⟨req, plane, reply, -, -, rfl⟩ := step_handle hstep
    exact h
  | acknowledged =>
    obtain ⟨req, b, hreq, -, -, rfl⟩ := step_acknowledged hstep
    refine h.of_perm [] [] rfl hsame ?_
    have hcarried : a.carried = req.flowRuns := by rw [carried, hreq]
    show (a.pending.runs ++ [] ++ (a.confirmed ++ [req]).flatMap IngestRequest.flowRuns ++ []).Perm
      (a.pending.runs ++ a.carried ++ a.delivered ++ [])
    rw [hcarried, List.flatMap_append]
    classical
    rw [List.perm_iff_count]
    intro r
    simp only [delivered, List.count_append, List.flatMap_cons, List.flatMap_nil, List.count_nil]
    omega
  | giveUp =>
    obtain ⟨req, b, hreq, -, rfl⟩ := step_giveUp hstep
    obtain ⟨out, hcount, hperm⟩ := a.pending.restore_perm req.flowRuns
    refine h.of_perm [] out hcount hsame ?_
    have hcarried : a.carried = req.flowRuns := by rw [carried, hreq]
    show ((a.pending.restore req.flowRuns).runs ++ [] ++ a.delivered ++ out).Perm
      (a.pending.runs ++ a.carried ++ a.delivered ++ [])
    rw [hcarried]
    classical
    rw [List.perm_iff_count] at hperm ⊢
    intro r
    have := hperm r
    simp only [List.count_append, List.count_nil] at this ⊢
    omega
  | forget id =>
    cases hstep
    exact h

theorem Kept.nodup (h : a.Kept) : (a.pending.runs.map Prod.fst).Nodup := by
  obtain ⟨evicted, -, hperm⟩ := h
  have hall := hperm.nodup_iff.mpr List.nodup_range
  refine hall.sublist (List.Sublist.map Prod.fst ?_)
  rw [List.append_assoc, List.append_assoc]
  exact List.sublist_append_left _ _

theorem Kept.fresh (h : a.Kept) :
    ∀ req ∈ a.confirmed, ∀ n ∈ req.flowRunNumbers, n ∉ a.request.flowRunNumbers := by
  intro req hreq n hn hwaits
  obtain ⟨evicted, -, hperm⟩ := h
  have hall := hperm.nodup_iff.mpr List.nodup_range
  rw [List.append_assoc, List.append_assoc, List.map_append, List.nodup_append'] at hall
  refine hall.2.2 hwaits ?_
  obtain ⟨r, hr, rfl⟩ := List.mem_map.mp hn
  have hdelivered : r ∈ a.delivered := List.mem_flatMap.mpr ⟨req, hreq, hr⟩
  exact List.mem_map_of_mem (by simp [hdelivered])

/-! ## What the endpoint stores -/

/-- Runs a copy stored before are written again only as a block the table remembers. -/
def Traced.Resends (cfg : AgentConfig) (t : Traced) : AgentEvent → Prop
  | .handle i env =>
    ∀ req ∈ t.agent.wire[i]?, ∀ assigned ∈ env.assigned, req.Admissible →
      req.batchId ∉ t.agent.plane.agentIngestDedup → env.flowRunSink = true →
      DedupTable.lands env.flowAttempts = true →
      t.agent.Retries t.flowRuns req.batchId ((env.keptRuns assigned req.flowRuns).map Prod.fst) →
      (flowBlock env.flowTtl cfg.identity.region (env.keptRuns assigned req.flowRuns)).map
        Prod.snd ∈ t.agent.plane.flowRuns.recent
  | _ => True

/-- A request that succeeds found its runs storable: there is a sink, the region serves
their targets, the insert was applied, and the block is not one the table remembers of
other runs. -/
def Stores (cfg : AgentConfig) (a : Agent) : AgentEvent → Prop
  | .handle i env =>
    ∀ req ∈ a.wire[i]?, ∀ assigned ∈ env.assigned, req.Admissible →
      req.batchId ∉ a.plane.agentIngestDedup →
      (env.keptResults assigned req.results = [] ∨
        DedupTable.succeeds env.resultAttempts = true) →
      ∀ r ∈ req.flowRuns, env.flowRunSink = true ∧
        (∀ r' ∈ req.flowRuns, (assigned r'.2.targetId).isSome) ∧
        DedupTable.lands env.flowAttempts = true ∧
        ((flowBlock env.flowTtl cfg.identity.region (env.keptRuns assigned req.flowRuns)).map
          Prod.snd ∈ a.plane.flowRuns.recent → r.1 ∈ a.plane.flowRuns.items)
  | _ => True

instance (cfg : AgentConfig) (t : Traced) : DecidablePred (t.Resends cfg)
  | .handle _ _ => inferInstanceAs (Decidable (∀ _ ∈ _, ∀ _ ∈ _, _ → _ → _ → _ → _ → _))
  | .batcher _ | .produce _ | .post | .send | .acknowledged | .giveUp | .forget _ =>
    inferInstanceAs (Decidable True)

instance (cfg : AgentConfig) (a : Agent) : DecidablePred (a.Stores cfg)
  | .handle _ _ => inferInstanceAs (Decidable (∀ _ ∈ _, ∀ _ ∈ _, _ → _ → _ → ∀ _ ∈ _, _))
  | .batcher _ | .produce _ | .post | .send | .acknowledged | .giveUp | .forget _ =>
    inferInstanceAs (Decidable True)

variable {env : IngestEnv} {assigned : Uuid → Option OrgId} {table : DedupTable FlowRunRow}
  {runs : List (Nat × FlowRunRecord)} {region : String}

theorem keptRuns_nodup (h : (runs.map Prod.fst).Nodup) :
    ((env.keptRuns assigned runs).map Prod.fst).Nodup := by
  rw [keptRuns_items]
  exact h.sublist (retainAssigned_sublist assigned runs)

theorem storeFlowRuns_once_iff (ht : table.Once) (hnodup : (runs.map Prod.fst).Nodup) :
    (storeFlowRuns region env assigned table runs).Once ↔
      (env.flowRunSink = true → table.Resendable
        (flowBlock env.flowTtl region (env.keptRuns assigned runs)) env.flowAttempts) := by
  unfold storeFlowRuns
  split
  · next hsink =>
    unfold writeInner
    split
    · next hempty =>
      refine iff_of_true ht fun _ _ => .inr fun n hn => ?_
      simp [hempty, flowBlock] at hn
    · have hblock : ((env.keptRuns assigned runs).map Prod.fst).Nodup := keptRuns_nodup hnodup
      rw [DedupTable.send_once_iff dedupWindow_pos ht (by rwa [flowBlock_items])]
      exact ⟨fun h _ => h, fun h => h hsink⟩
  · next hno => exact iff_of_true ht fun hsink => absurd hsink hno

variable {n i : Nat}

theorem mem_items_of_storable {r : Nat × FlowRunRecord} (hr : r ∈ runs)
    (hsink : env.flowRunSink = true)
    (hserved : ∀ r' ∈ runs, (assigned r'.2.targetId).isSome)
    (hlands : DedupTable.lands env.flowAttempts = true)
    (hknown : (flowBlock env.flowTtl region (env.keptRuns assigned runs)).map Prod.snd ∈
      table.recent → r.1 ∈ table.items) :
    r.1 ∈ (storeFlowRuns region env assigned table runs).items := by
  have hitems : (flowBlock env.flowTtl region (env.keptRuns assigned runs)).map Prod.fst =
      runs.map Prod.fst := by
    rw [flowBlock_items, keptRuns_items, retainAssigned_items assigned hserved]
  have hkept : env.keptRuns assigned runs ≠ [] := by
    intro hnil
    rw [hnil] at hitems
    have hmem := List.mem_map_of_mem (f := Prod.fst) hr
    rw [← hitems] at hmem
    cases hmem
  rw [storeFlowRuns, if_pos hsink, writeInner_eq _ _ _ hkept, if_pos hlands]
  by_cases hrec : (flowBlock env.flowTtl region (env.keptRuns assigned runs)).map Prod.snd ∈
      table.recent
  · rw [DedupTable.insert_remembered hrec]
    exact hknown hrec
  · rw [DedupTable.items_insert hrec, hitems]
    exact List.mem_append_right _ (List.mem_map_of_mem hr)

/-- Every run of a request that succeeded has its row. -/
structure Held (a : Agent) : Prop where
  issued : a.Issued
  kept : a.Kept
  nodup : ∀ req ∈ a.posted, req.flowRunNumbers.Nodup
  sharing : a.Sharing IngestRequest.flowRunNumbers
  replied : ∀ id ∈ a.replies, ∀ req, a.posted[id]? = some req →
    ∀ r ∈ req.flowRuns, r.1 ∈ a.plane.flowRuns.items
  consumed : ∀ id ∈ a.plane.agentIngestDedup, ∀ req, a.posted[id]? = some req →
    ∀ r ∈ req.flowRuns, r.1 ∈ a.plane.flowRuns.items
  delivered : ∀ r ∈ a.delivered, r.1 ∈ a.plane.flowRuns.items

theorem held_start : start.Held := by
  refine ⟨issued_start, kept_start, ?_, sharing_start, ?_, ?_, ?_⟩ <;> intro x hx <;> cases hx

variable {p' : ControlPlane} {req : IngestRequest} {reply : IngestReply}

theorem ingestResults_items {agent : AgentIdentity} {p : ControlPlane}
    (h : ingestResults agent env p req = (p', reply)) (hn : n ∈ p.flowRuns.items) :
    n ∈ p'.flowRuns.items :=
  (ingestResults_grows h).2.1.subset hn

theorem held_success (h : a.Held) (hstores : a.Stores cfg (.handle i env))
    (hreq : a.wire[i]? = some req)
    (hingest : ingestResults cfg.identity env a.plane req = (p', reply))
    (hsuccess : reply.isSuccess = true) : ∀ r ∈ req.flowRuns, r.1 ∈ p'.flowRuns.items := by
  intro r hr
  have hposted := h.issued.wire req (List.mem_of_getElem? hreq)
  have hresults := h.issued.posted req (List.mem_of_getElem? hposted)
  rcases ingestResults_cases hingest with ⟨rfl, -, hearly⟩ | ⟨assigned, hproc, hflow, -, -, hdone⟩
  · obtain ⟨-, hdup | hempty⟩ := hearly hsuccess
    · exact h.consumed req.batchId hdup req hposted r hr
    · exact absurd hempty hresults
  · obtain ⟨hadm, hnew, -, hassigned⟩ := hproc
    obtain ⟨hsink, hserved, hlands, hknown⟩ :=
      hstores req hreq assigned hassigned hadm hnew (hdone hsuccess) r hr
    rw [hflow]
    exact mem_items_of_storable hr hsink hserved hlands hknown

theorem held_step (h : a.Held) (hstores : a.Stores cfg e)
    (hstep : a.step cfg e = some a') : a'.Held := by
  have hissued := issued_step h.issued hstep
  have hkept := kept_step h.kept hstep
  have hsharing := sharing_step h.sharing h.issued h.kept.fresh hstep
  cases e with
  | batcher e =>
    obtain ⟨e', b, -, -, rfl⟩ := step_batcher hstep
    exact { h with issued := hissued, kept := hkept, sharing := hsharing }
  | produce run =>
    cases hstep
    exact { h with issued := hissued, kept := hkept, sharing := hsharing }
  | post =>
    obtain ⟨-, -, ⟨b, -, -, rfl⟩ | ⟨-, rfl⟩⟩ := step_post hstep
    · exact { h with issued := hissued, kept := hkept, sharing := hsharing }
    · -- the new id is nobody's yet
      have hold : ∀ {id : Nat} {req : IngestRequest}, id < a.posted.length →
          (a.posted ++ [a.request])[id]? = some req → a.posted[id]? = some req := by
        intro id req hid hreq
        rwa [List.getElem?_append_left hid] at hreq
      refine { h with issued := hissued, kept := hkept, sharing := hsharing, nodup := fun req hreq => ?_,
                      replied := fun id hid req hreq => ?_,
                      consumed := fun id hid req hreq => ?_ }
      · rcases List.mem_append.mp hreq with hmem | hnew
        · exact h.nodup req hmem
        · rw [List.mem_singleton.mp hnew]
          exact h.kept.nodup
      · exact h.replied id hid req (hold (h.issued.replies id hid) hreq)
      · exact h.consumed id hid req (hold (h.issued.consumed id hid) hreq)
  | send =>
    obtain ⟨req, -, rfl⟩ := step_send hstep
    exact { h with issued := hissued, kept := hkept, sharing := hsharing }
  | handle i env =>
    obtain ⟨req, plane, reply, hreq, hingest, rfl⟩ := step_handle hstep
    have hposted := h.issued.wire req (List.mem_of_getElem? hreq)
    have hmine : reply.isSuccess = true → ∀ req', a.posted[req.batchId]? = some req' →
        ∀ r ∈ req'.flowRuns, r.1 ∈ plane.flowRuns.items := by
      intro hsuccess req' hreq'
      rw [hposted] at hreq'
      cases hreq'
      exact held_success h hstores hreq hingest hsuccess
    refine ⟨hissued, hkept, h.nodup, hsharing, ?_, ?_, ?_⟩
    · intro id hid req' hreq' r hr
      simp only at hid
      split at hid
      · next hsuccess =>
        rcases List.mem_cons.mp hid with rfl | hold
        · exact hmine hsuccess req' hreq' r hr
        · exact ingestResults_items hingest (h.replied id hold req' hreq' r hr)
      · exact ingestResults_items hingest (h.replied id hid req' hreq' r hr)
    · intro id hid req' hreq' r hr
      rcases ingestResults_consumed_success hingest hid with hold | ⟨rfl, hsuccess⟩
      · exact ingestResults_items hingest (h.consumed id hold req' hreq' r hr)
      · exact hmine hsuccess req' hreq' r hr
    · intro r hr
      exact ingestResults_items hingest (h.delivered r hr)
  | acknowledged =>
    obtain ⟨req, b, hreq, hreply, -, rfl⟩ := step_acknowledged hstep
    refine { h with issued := hissued, kept := hkept, sharing := hsharing, delivered := fun r hr => ?_ }
    obtain ⟨req', hreq', hr⟩ := List.mem_flatMap.mp hr
    rcases List.mem_append.mp hreq' with hold | hnew
    · exact h.delivered r (List.mem_flatMap.mpr ⟨req', hold, hr⟩)
    · rw [List.mem_singleton.mp hnew] at hr
      exact h.replied req.batchId hreply req (h.issued.inFlight req hreq) r hr
  | giveUp =>
    obtain ⟨req, b, -, -, rfl⟩ := step_giveUp hstep
    exact { h with issued := hissued, kept := hkept, sharing := hsharing }
  | forget id =>
    cases hstep
    exact { h with issued := hissued, kept := hkept, sharing := hsharing,
                   consumed := fun id' hid' => h.consumed id' (List.mem_of_mem_filter hid') }

namespace Traced

structure Held (t : Traced) : Prop where
  agent : t.agent.Held
  recorded : t.Recorded
  once : t.agent.plane.flowRuns.Once

variable {t t' : Traced}

theorem Held.resendable_iff (h : t.Held) (env : IngestEnv) (assigned : Uuid → Option OrgId)
    {req : IngestRequest} (hposted : t.agent.posted[req.batchId]? = some req) :
    t.agent.plane.flowRuns.Resendable
        (flowBlock env.flowTtl region (env.keptRuns assigned req.flowRuns)) env.flowAttempts ↔
      (DedupTable.lands env.flowAttempts = true →
        t.agent.Retries t.flowRuns req.batchId
          ((env.keptRuns assigned req.flowRuns).map Prod.fst) →
        (flowBlock env.flowTtl region (env.keptRuns assigned req.flowRuns)).map Prod.snd ∈
          t.agent.plane.flowRuns.recent) := by
  have hsub : ∀ n ∈ (env.keptRuns assigned req.flowRuns).map Prod.fst,
      n ∈ req.flowRunNumbers := by
    intro n hn
    rw [keptRuns_items] at hn
    exact (retainAssigned_sublist assigned req.flowRuns).subset hn
  have hretries := retries_iff h.agent.sharing h.recorded.flowRuns hposted hsub
  rw [DedupTable.resendable_iff, flowBlock_items, hretries]

theorem handle_flow_once_iff (h : t.Held)
    (hstep : t.agent.step cfg (.handle i env) = some a') :
    a'.plane.flowRuns.Once ↔ t.Resends cfg (.handle i env) := by
  obtain ⟨req, plane, reply, hreq, hingest, rfl⟩ := step_handle hstep
  have hposted := h.agent.issued.wire req (List.mem_of_getElem? hreq)
  have hmem := List.mem_of_getElem? hposted
  simp only [Resends, hreq, Option.mem_some_iff, forall_eq']
  rcases ingestResults_cases hingest with ⟨rfl, hnot, -⟩ | ⟨assigned, hproc, hflow, -, -, -⟩
  · refine iff_of_true h.once fun assigned hassigned hadm hnew => ?_
    exact absurd ⟨hadm, hnew, h.agent.issued.posted req hmem, hassigned⟩ (hnot assigned)
  · obtain ⟨hadm, hnew, -, hassigned⟩ := hproc
    rw [hflow, storeFlowRuns_once_iff h.once (h.agent.nodup req hmem),
      h.resendable_iff env assigned hposted, hassigned]
    simp only [Option.mem_some_iff, forall_eq']
    exact ⟨fun hre _ _ => hre, fun hre => hre hadm hnew⟩

theorem flow_once_iff (h : t.Held) (hstep : t.step cfg e = some t') :
    t'.agent.plane.flowRuns.Once ↔ t.Resends cfg e := by
  have hagent := step_agent hstep
  cases e with
  | handle i env => exact handle_flow_once_iff h hagent
  | batcher _ | produce _ | post | send | acknowledged | giveUp | forget _ =>
    obtain ⟨-, -, hflow⟩ := step_tables hagent (by simp)
    rw [hflow]
    exact iff_of_true h.once trivial

theorem held_step (h : t.Held) (hresends : t.Resends cfg e) (hstores : t.agent.Stores cfg e)
    (hstep : t.step cfg e = some t') : t'.Held where
  agent := Agent.held_step h.agent hstores (step_agent hstep)
  recorded := recorded_step h.recorded h.agent.issued hstep
  once := (flow_once_iff h hstep).mpr hresends

/-- **Flow runs survive retries exactly once.**  Along every run whose copies are written
as `Resends` and `Stores` say: every run queued is waiting, carried, delivered or counted
as evicted, none is stored twice, and those delivered are stored; and the next step stores
none twice exactly when it resends so. -/
theorem flow_runs_once
    (hrun : Run (step cfg) (fun t e => t.Resends cfg e ∧ t.agent.Stores cfg e) start t) :
    t.agent.Kept ∧ t.agent.plane.flowRuns.Once ∧
      (∀ r ∈ t.agent.delivered, r.1 ∈ t.agent.plane.flowRuns.items) ∧
      ∀ e t', t.step cfg e = some t' →
        (t'.agent.plane.flowRuns.Once ↔ t.Resends cfg e) := by
  have h : t.Held := hrun.invariant ⟨held_start, recorded_start, List.nodup_nil⟩
    fun _ _ _ hu hok hstep => held_step hu hok.1 hok.2 hstep
  exact ⟨h.agent.kept, h.once, h.agent.delivered, fun e t' hstep => flow_once_iff h hstep⟩

/-- The first copy stores the run and fails on the results; the second is the same block,
and succeeds. -/
theorem flow_runs_once_resent :
    ∃ t, Run (step Sample.cfg)
        (fun t e => t.Resends Sample.cfg e ∧ t.agent.Stores Sample.cfg e) start t ∧
      t.agent.delivered.map Prod.fst = [0] ∧ t.agent.plane.flowRuns.items = [0] ∧
      t.agent.plane.flowRuns.Once := by
  let events : List AgentEvent := [.produce Sample.flowRun,
    .batcher (.received (Sample.result 1)), .post, .send, .handle 0 (Sample.env [.refused]),
    .send, .handle 0 (Sample.env [.acked]), .acknowledged]
  obtain ⟨t, hrun, ht⟩ : ∃ t : Traced,
      Run (step Sample.cfg)
        (fun t e => t.Resends Sample.cfg e ∧ t.agent.Stores Sample.cfg e) start t ∧
        t.agent.delivered.map Prod.fst = [0] ∧ t.agent.plane.flowRuns.items = [0] :=
    exists_guarded_run events (by decide +kernel)
  obtain ⟨hdelivered, hitems⟩ := ht
  exact ⟨t, hrun, hdelivered, hitems, (flow_runs_once hrun).2.1⟩

end Traced

/-- The run is stored, the results are not, and the agent gives up: the run goes back into
the queue and is stored again beside the next one. -/
theorem flow_run_stored_twice :
    ∃ a, Run (step Sample.cfg) (fun _ _ => True) start a ∧ ¬ a.plane.flowRuns.Once := by
  let events : List AgentEvent := [.produce Sample.flowRun,
    .batcher (.received (Sample.result 1)), .post, .send, .handle 0 (Sample.env [.refused]),
    .giveUp, .produce Sample.flowRun, .batcher .tick, .post, .send,
    .handle 0 (Sample.env [.acked])]
  obtain ⟨a, hrun, ha⟩ : ∃ a : Agent, Run (step Sample.cfg) (fun _ _ => True) start a ∧
      a.plane.flowRuns.items = [0, 0, 1] :=
    exists_run_satisfying events (by decide +kernel)
  refine ⟨a, hrun, ?_⟩
  rw [DedupTable.Once, ha]
  decide

end Agent

end Uptimepage
