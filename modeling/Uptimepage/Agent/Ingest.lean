import Uptimepage.Clickhouse.Sinks

/-!
# The ingest endpoint

`api/handlers/agents.rs`: `ingest_results` with `retain_assigned` and `store_flow_runs`.
The handler stores the flow runs before the results and marks the batch consumed only
after the results are written, so it has more than one exit behind the flow-run write.
`ingestResults_cases` lists the exits.
-/

namespace Uptimepage

def ingestMaxBatch : Nat := 10000

def ingestMaxFlowRuns : Nat := 256

def maxFutureSkewSecs : Int := 300

structure AgentIdentity where
  region : String
  agentId : String
deriving DecidableEq

/-- Results and flow runs carry their arrival numbers, which are not on the wire. -/
structure IngestRequest where
  batchId : Uuid
  results : List (Nat × CheckResult)
  flowRuns : List (Nat × FlowRunRecord)
deriving DecidableEq

/-- What the handler finds when it runs.  `assigned` is `none` when the database could not
be asked, and `scrub` is what `ScrubbedFlowRunSink` makes of a run. -/
structure IngestEnv where
  now : Time
  assigned : Option (Uuid → Option OrgId)
  flowRunSink : Bool
  scrub : FlowRunRecord → FlowRunRecord
  flowTtl : OrgTtlDays
  flowAttempts : List InsertOutcome
  resultTtl : OrgTtlDays
  resultAttempts : List InsertOutcome

/-- What the handler changes: `agent_ingest_dedup` and the two tables. -/
structure ControlPlane where
  agentIngestDedup : List Uuid
  results : DedupTable CheckResultRow
  flowRuns : DedupTable FlowRunRow
deriving DecidableEq

inductive IngestReply
  | unprocessable (message : String)
  | failed
  | accepted (n dropped : Nat) (duplicate : Bool)
deriving DecidableEq

def IngestReply.isSuccess : IngestReply → Bool
  | .accepted _ _ _ => true
  | .unprocessable _ | .failed => false

def tooManyResults (n : Nat) : IngestReply :=
  .unprocessable s!"batch of {n} results exceeds the {ingestMaxBatch} cap"

def tooManyFlowRuns (n : Nat) : IngestReply :=
  .unprocessable s!"batch of {n} flow runs exceeds the {ingestMaxFlowRuns} cap"

/-- The `retain_mut` over the results: future-skewed and foreign rows go, and the org comes
from the assignment. -/
def retainResults (cutoff : Time) (assigned : Uuid → Option OrgId)
    (results : List (Nat × CheckResult)) : List (Nat × CheckResult) :=
  results.filterMap fun r =>
    if cutoff < r.2.timestamp then none
    else (assigned r.2.targetId).map fun org => (r.1, { r.2 with orgId := org })

def retainAssigned (assigned : Uuid → Option OrgId) (runs : List (Nat × FlowRunRecord)) :
    List (Nat × FlowRunRecord) :=
  runs.filterMap fun r =>
    (assigned r.2.targetId).map fun org => (r.1, { r.2 with orgId := org })

/-- The runs `store_flow_runs` hands to ClickHouse. -/
def IngestEnv.keptRuns (env : IngestEnv) (assigned : Uuid → Option OrgId)
    (runs : List (Nat × FlowRunRecord)) : List (Nat × FlowRunRecord) :=
  (retainAssigned assigned runs).map fun r => (r.1, env.scrub r.2)

def storeFlowRuns (region : String) (env : IngestEnv) (assigned : Uuid → Option OrgId)
    (table : DedupTable FlowRunRow) (runs : List (Nat × FlowRunRecord)) : DedupTable FlowRunRow :=
  if env.flowRunSink then
    writeInner env.flowTtl region table (env.keptRuns assigned runs) env.flowAttempts
  else table

/-- The rows the results of a request would be kept as. -/
def IngestEnv.keptResults (env : IngestEnv) (assigned : Uuid → Option OrgId)
    (results : List (Nat × CheckResult)) : List (Nat × CheckResult) :=
  retainResults (env.now + seconds maxFutureSkewSecs) assigned results

def ingestResults (agent : AgentIdentity) (env : IngestEnv) (p : ControlPlane)
    (req : IngestRequest) : ControlPlane × IngestReply :=
  if ingestMaxBatch < req.results.length then (p, tooManyResults req.results.length)
  else if ingestMaxFlowRuns < req.flowRuns.length then (p, tooManyFlowRuns req.flowRuns.length)
  else if req.batchId ∈ p.agentIngestDedup then (p, .accepted 0 0 true)
  else if req.results = [] then (p, .accepted 0 0 false)
  else
    match env.assigned with
    | none => (p, .failed)
    | some assigned =>
      let results := env.keptResults assigned req.results
      let dropped := req.results.length - results.length
      let stored := storeFlowRuns agent.region env assigned p.flowRuns req.flowRuns
      if results = [] then ({ p with flowRuns := stored }, .accepted 0 dropped false)
      else
        let (table, ok) := writeBatchInner env.resultTtl agent.region agent.agentId p.results
          results env.resultAttempts
        if ok then
          ({ agentIngestDedup := req.batchId :: p.agentIngestDedup, results := table,
             flowRuns := stored }, .accepted results.length dropped false)
        else ({ p with results := table, flowRuns := stored }, .failed)

/-- The request passes the two size checks. -/
def IngestRequest.Admissible (req : IngestRequest) : Prop :=
  req.results.length ≤ ingestMaxBatch ∧ req.flowRuns.length ≤ ingestMaxFlowRuns

instance (req : IngestRequest) : Decidable req.Admissible :=
  inferInstanceAs (Decidable (_ ∧ _))

/-- The handler gets past its early returns: it stores the flow runs and goes on to the
results. -/
def Processes (env : IngestEnv) (p : ControlPlane) (req : IngestRequest)
    (assigned : Uuid → Option OrgId) : Prop :=
  req.Admissible ∧ req.batchId ∉ p.agentIngestDedup ∧ req.results ≠ [] ∧
    env.assigned = some assigned

section Exits

variable {agent : AgentIdentity} {env : IngestEnv} {p p' : ControlPlane} {req : IngestRequest}
  {reply : IngestReply}

theorem ingestResults_cases (h : ingestResults agent env p req = (p', reply)) :
    (p' = p ∧ (∀ assigned, ¬ Processes env p req assigned) ∧
      (reply.isSuccess = true →
        req.Admissible ∧ (req.batchId ∈ p.agentIngestDedup ∨ req.results = []))) ∨
    ∃ assigned, Processes env p req assigned ∧
      p'.flowRuns = storeFlowRuns agent.region env assigned p.flowRuns req.flowRuns ∧
      p'.results = (writeBatchInner env.resultTtl agent.region agent.agentId p.results
        (env.keptResults assigned req.results) env.resultAttempts).1 ∧
      (p'.agentIngestDedup = p.agentIngestDedup ∨
        p'.agentIngestDedup = req.batchId :: p.agentIngestDedup ∧ reply.isSuccess = true) ∧
      (reply.isSuccess = true → env.keptResults assigned req.results = [] ∨
        DedupTable.succeeds env.resultAttempts = true) := by
  unfold ingestResults at h
  split at h
  · next hlarge =>
    cases h
    refine .inl ⟨rfl, fun assigned hp => ?_, fun hs => by cases hs⟩
    exact absurd hp.1.1 (Nat.not_le.mpr hlarge)
  split at h
  · next hlarge =>
    cases h
    refine .inl ⟨rfl, fun assigned hp => ?_, fun hs => by cases hs⟩
    exact absurd hp.1.2 (Nat.not_le.mpr hlarge)
  next hresults hruns =>
  have hadm : req.Admissible := ⟨Nat.not_lt.mp hresults, Nat.not_lt.mp hruns⟩
  split at h
  · next hdup =>
    cases h
    exact .inl ⟨rfl, fun assigned hp => hp.2.1 hdup, fun _ => ⟨hadm, .inl hdup⟩⟩
  split at h
  · next hempty =>
    cases h
    exact .inl ⟨rfl, fun assigned hp => hp.2.2.1 hempty, fun _ => ⟨hadm, .inr hempty⟩⟩
  next hnew hsome =>
  split at h
  · next hdb =>
    cases h
    refine .inl ⟨rfl, fun assigned hp => ?_, fun hs => by cases hs⟩
    have hassigned := hp.2.2.2
    rw [hdb] at hassigned
    cases hassigned
  next assigned hdb =>
  refine .inr ⟨assigned, ⟨hadm, hnew, hsome, hdb⟩, ?_⟩
  simp only at h
  split at h
  · next hnone =>
    cases h
    refine ⟨rfl, ?_, .inl rfl, fun _ => .inl hnone⟩
    rw [hnone, writeBatchInner, if_pos rfl]
  · next hkept =>
    split at h
    · next hok =>
      rw [writeBatchInner_eq _ _ _ _ hkept] at hok
      cases h
      exact ⟨rfl, rfl, .inr ⟨rfl, rfl⟩, fun _ => .inr hok⟩
    · cases h
      exact ⟨rfl, rfl, .inl rfl, fun hs => (by cases hs)⟩

end Exits

/-! ## What is kept of a request -/

theorem retainResults_sublist (cutoff : Time) (assigned : Uuid → Option OrgId)
    (results : List (Nat × CheckResult)) :
    ((retainResults cutoff assigned results).map Prod.fst).Sublist (results.map Prod.fst) := by
  induction results with
  | nil => exact .slnil
  | cons r rest ih =>
    unfold retainResults at ih ⊢
    rw [List.filterMap_cons]
    split
    · exact .cons _ ih
    · next kept heq =>
      have hfst : kept.1 = r.1 := by
        split at heq
        · cases heq
        · obtain ⟨org, -, rfl⟩ := Option.map_eq_some_iff.mp heq
          rfl
      rw [List.map_cons, List.map_cons, hfst]
      exact .cons_cons _ ih

theorem retainAssigned_sublist (assigned : Uuid → Option OrgId)
    (runs : List (Nat × FlowRunRecord)) :
    ((retainAssigned assigned runs).map Prod.fst).Sublist (runs.map Prod.fst) := by
  induction runs with
  | nil => exact .slnil
  | cons r rest ih =>
    unfold retainAssigned at ih ⊢
    rw [List.filterMap_cons]
    split
    · exact .cons _ ih
    · next kept heq =>
      obtain ⟨org, -, rfl⟩ := Option.map_eq_some_iff.mp heq
      rw [List.map_cons, List.map_cons]
      exact .cons_cons _ ih

theorem keptRuns_items (env : IngestEnv) (assigned : Uuid → Option OrgId)
    (runs : List (Nat × FlowRunRecord)) :
    ((env.keptRuns assigned runs).map Prod.fst) = (retainAssigned assigned runs).map Prod.fst := by
  simp [IngestEnv.keptRuns]

theorem retainAssigned_items (assigned : Uuid → Option OrgId)
    {runs : List (Nat × FlowRunRecord)} (h : ∀ r ∈ runs, (assigned r.2.targetId).isSome) :
    (retainAssigned assigned runs).map Prod.fst = runs.map Prod.fst := by
  induction runs with
  | nil => rfl
  | cons r rest ih =>
    obtain ⟨org, horg⟩ := Option.isSome_iff_exists.mp (h r List.mem_cons_self)
    have hrest := ih fun r' hr' => h r' (List.mem_cons_of_mem _ hr')
    unfold retainAssigned at hrest ⊢
    rw [List.filterMap_cons, horg]
    simpa using hrest

end Uptimepage
