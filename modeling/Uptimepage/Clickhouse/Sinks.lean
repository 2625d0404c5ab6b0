import Uptimepage.Async.DedupTable
import Uptimepage.Domain.CheckResult

/-!
# The ClickHouse sinks

`storage/clickhouse/sinks.rs`: the rows that results and flow runs become, and the two
writers.  Both tables are created with `non_replicated_deduplication_window = 1000`
(`001_initial.sql`, `003_flow_runs.sql`).  A result or flow run is paired with its
arrival number, which is not part of the row.
-/

namespace Uptimepage

/-- `non_replicated_deduplication_window`. -/
def dedupWindow : Nat := 1000

structure RetentionDays where
  row : Nat
  evidence : Nat
deriving DecidableEq

/-- `OrgTtlDays`: the retention in force when a batch is written. -/
abbrev OrgTtlDays := OrgId → RetentionDays

/-- `dt.timestamp().clamp(0, u32::MAX)`. -/
def toUnixSecs (t : Time) : Nat := min (t / 1000000).toNat (2 ^ 32 - 1)

structure CheckResultRow where
  orgId : OrgId
  targetId : Uuid
  region : String
  timestamp : Nat
  agentId : String
  status : CheckStatus
  durationMs : Nat
  dnsMs : Option Nat
  connectMs : Option Nat
  tlsMs : Option Nat
  ttfbMs : Option Nat
  responseCode : Option Nat
  responseSize : Option Nat
  error : Option String
  diagnosticKind : Option CheckDiagnosticKind
  diagnosticConfidence : Option DiagnosticConfidence
  diagnosticProvider : Option EdgeProvider
  diagnosticEvidence : List DiagnosticEvidence
  ttlDays : Nat
deriving DecidableEq

def CheckResultRow.fromResult (r : CheckResult) (region agentId : String) (ttlDays : Nat) :
    CheckResultRow where
  orgId := r.orgId
  targetId := r.targetId
  region := region
  timestamp := toUnixSecs r.timestamp
  agentId := agentId
  status := r.status
  durationMs := r.durationMs
  dnsMs := r.dnsMs
  connectMs := r.connectMs
  tlsMs := r.tlsMs
  ttfbMs := r.ttfbMs
  responseCode := r.responseCode
  responseSize := r.responseSize
  error := r.error
  diagnosticKind := r.diagnostic.map (·.kind)
  diagnosticConfidence := r.diagnostic.map (·.confidence)
  diagnosticProvider := r.diagnostic.bind (·.provider)
  diagnosticEvidence := (r.diagnostic.map (·.evidence)).getD []
  ttlDays := ttlDays

structure FlowRunRow where
  orgId : OrgId
  targetId : Uuid
  region : String
  timestamp : Nat
  status : CheckStatus
  durationMs : Nat
  stoppedStep : Option Nat
  error : String
  stepOp : List String
  stepOutcome : List StepOutcome
  stepMs : List Nat
  finalUrl : String
  title : String
  textSnippet : String
  consoleLevel : List String
  consoleText : List String
  evidenceDays : Nat
  ttlDays : Nat
deriving DecidableEq

def FlowRunRow.fromRecord (r : FlowRunRecord) (region : String) (ttl : RetentionDays) :
    FlowRunRow where
  orgId := r.orgId
  targetId := r.targetId
  region := region
  timestamp := toUnixSecs r.timestamp
  status := r.status
  durationMs := r.durationMs
  stoppedStep := (r.steps.findIdx? (·.outcome != .passed)).map (min · (2 ^ 16 - 1))
  error := r.error.getD ""
  stepOp := r.steps.map (·.op)
  stepOutcome := r.steps.map (·.outcome)
  stepMs := r.steps.map (·.durationMs)
  finalUrl := (r.evidence.bind (·.finalUrl)).getD ""
  title := (r.evidence.bind (·.title)).getD ""
  textSnippet := (r.evidence.bind (·.textSnippet)).getD ""
  consoleLevel := (r.evidence.map fun e => e.console.map (·.level)).getD []
  consoleText := (r.evidence.map fun e => e.console.map (·.text)).getD []
  evidenceDays := ttl.evidence
  ttlDays := ttl.row

def resultBlock (ttl : OrgTtlDays) (region agentId : String) (results : List (Nat × CheckResult)) :
    List (Nat × CheckResultRow) :=
  results.map fun r => (r.1, .fromResult r.2 region agentId (ttl r.2.orgId).row)

def flowBlock (ttl : OrgTtlDays) (region : String) (runs : List (Nat × FlowRunRecord)) :
    List (Nat × FlowRunRow) :=
  runs.map fun r => (r.1, .fromRecord r.2 region (ttl r.2.orgId))

/-- `ClickhouseResultSink::write_batch_inner`: the rows are made once and every attempt
sends all of them. -/
def writeBatchInner (ttl : OrgTtlDays) (region agentId : String)
    (table : DedupTable CheckResultRow) (results : List (Nat × CheckResult))
    (attempts : List InsertOutcome) : DedupTable CheckResultRow × Bool :=
  if results = [] then (table, true)
  else table.send dedupWindow (resultBlock ttl region agentId results) attempts

/-- `ClickhouseFlowRunSink::write_inner`: the outcome is not reported. -/
def writeInner (ttl : OrgTtlDays) (region : String) (table : DedupTable FlowRunRow)
    (runs : List (Nat × FlowRunRecord)) (attempts : List InsertOutcome) : DedupTable FlowRunRow :=
  if runs = [] then table
  else (table.send dedupWindow (flowBlock ttl region runs) attempts).1

@[simp] theorem resultBlock_items (ttl : OrgTtlDays) (region agentId : String)
    (results : List (Nat × CheckResult)) :
    (resultBlock ttl region agentId results).map Prod.fst = results.map Prod.fst := by
  simp [resultBlock]

@[simp] theorem flowBlock_items (ttl : OrgTtlDays) (region : String)
    (runs : List (Nat × FlowRunRecord)) :
    (flowBlock ttl region runs).map Prod.fst = runs.map Prod.fst := by
  simp [flowBlock]

theorem dedupWindow_pos : 0 < dedupWindow := by decide

theorem writeBatchInner_eq (ttl : OrgTtlDays) (region agentId : String)
    (table : DedupTable CheckResultRow) {results : List (Nat × CheckResult)} (h : results ≠ [])
    (attempts : List InsertOutcome) :
    writeBatchInner ttl region agentId table results attempts =
      (if DedupTable.lands attempts then
        table.insert dedupWindow (resultBlock ttl region agentId results) else table,
        DedupTable.succeeds attempts) := by
  rw [writeBatchInner, if_neg h, DedupTable.send_eq dedupWindow_pos]

theorem writeInner_eq (ttl : OrgTtlDays) (region : String) (table : DedupTable FlowRunRow)
    {runs : List (Nat × FlowRunRecord)} (h : runs ≠ []) (attempts : List InsertOutcome) :
    writeInner ttl region table runs attempts =
      if DedupTable.lands attempts then
        table.insert dedupWindow (flowBlock ttl region runs) else table := by
  rw [writeInner, if_neg h, DedupTable.send_eq dedupWindow_pos]

theorem writeBatchInner_grows (ttl : OrgTtlDays) (region agentId : String)
    (table : DedupTable CheckResultRow) (results : List (Nat × CheckResult))
    (attempts : List InsertOutcome) :
    table.items <+: (writeBatchInner ttl region agentId table results attempts).1.items ∧
      ∀ n ∈ table.since (writeBatchInner ttl region agentId table results attempts).1,
        n ∈ results.map Prod.fst := by
  unfold writeBatchInner
  split
  · simp [DedupTable.since]
  · have hgrows := DedupTable.items_prefix_send dedupWindow_pos table
      (resultBlock ttl region agentId results) attempts
    rwa [resultBlock_items] at hgrows

theorem writeInner_grows (ttl : OrgTtlDays) (region : String) (table : DedupTable FlowRunRow)
    (runs : List (Nat × FlowRunRecord)) (attempts : List InsertOutcome) :
    table.items <+: (writeInner ttl region table runs attempts).items ∧
      ∀ n ∈ table.since (writeInner ttl region table runs attempts), n ∈ runs.map Prod.fst := by
  unfold writeInner
  split
  · simp [DedupTable.since]
  · have hgrows := DedupTable.items_prefix_send dedupWindow_pos table
      (flowBlock ttl region runs) attempts
    rwa [flowBlock_items] at hgrows

end Uptimepage
