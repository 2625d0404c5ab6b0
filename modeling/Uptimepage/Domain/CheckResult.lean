import Uptimepage.Domain.Incident

/-!
# Check results and flow runs

`domain/result.rs` and the part of `domain/agent_wire.rs` that an agent ships home: the
result of one check, and what one browser-flow run left behind.
-/

namespace Uptimepage

inductive CheckStatus
  | up
  | down
  | degraded
  | error
deriving DecidableEq

def CheckStatus.isBad : CheckStatus → Bool
  | .down | .error | .degraded => true
  | .up => false

def CheckStatus.severityRank : CheckStatus → Nat
  | .up => 0
  | .degraded => 1
  | .error => 2
  | .down => 3

inductive CheckDiagnosticKind
  | accessInterference
  | originUnreachable
  | originTunnelDown
deriving DecidableEq

inductive DiagnosticConfidence
  | high
  | medium
deriving DecidableEq

inductive EdgeProvider
  | akamai
  | awsWaf
  | cloudflare
  | azureFrontDoor
  | dataDome
  | vercel
deriving DecidableEq

inductive DiagnosticEvidence
  | challengeHeader
  | edgeServer
  | blockPage
  | referenceId
  | originErrorCode
  | mitigationHeader
deriving DecidableEq

/-- The remediations are derived from the kind and never stored. -/
structure CheckDiagnostic where
  kind : CheckDiagnosticKind
  confidence : DiagnosticConfidence
  provider : Option EdgeProvider
  evidence : List DiagnosticEvidence
deriving DecidableEq

/-- "blocked *at* the edge", but "origin unreachable *behind* it". -/
def CheckDiagnosticKind.joiner : CheckDiagnosticKind → String
  | .accessInterference => "at"
  | .originUnreachable | .originTunnelDown => "behind"

def EdgeProvider.label : EdgeProvider → String
  | .akamai => "the Akamai edge"
  | .awsWaf => "AWS WAF"
  | .cloudflare => "the Cloudflare edge"
  | .azureFrontDoor => "Azure Front Door"
  | .dataDome => "DataDome"
  | .vercel => "the Vercel edge"

namespace CheckDiagnostic

def summary (d : CheckDiagnostic) : String :=
  let certainty :=
    match d.kind, d.confidence with
    | .accessInterference, .high => "access-policy block detected"
    | .accessInterference, .medium => "possible access-policy block"
    | .originUnreachable, _ => "origin unreachable"
    | .originTunnelDown, _ => "origin tunnel down"
  match d.provider with
  | some provider => certainty ++ " " ++ d.kind.joiner ++ " " ++ provider.label
  | none => certainty

def guidance (d : CheckDiagnostic) : String :=
  match d.kind with
  | .accessInterference =>
    "use an authenticated health endpoint, or allow this monitor through the edge's access rules"
  | .originUnreachable => "check the origin is up and reachable from the edge"
  | .originTunnelDown => "restart the tunnel daemon on the origin, then check the origin is up"

end CheckDiagnostic

structure CheckResult where
  targetId : Uuid
  orgId : OrgId
  timestamp : Time
  status : CheckStatus
  durationMs : Nat
  dnsMs : Option Nat
  connectMs : Option Nat
  tlsMs : Option Nat
  ttfbMs : Option Nat
  responseCode : Option Nat
  responseSize : Option Nat
  diagnostic : Option CheckDiagnostic
  error : Option String
deriving DecidableEq

inductive StepOutcome
  | passed
  | failed
  | skipped
deriving DecidableEq

structure StepTrace where
  op : String
  outcome : StepOutcome
  durationMs : Nat
deriving DecidableEq

structure ConsoleLine where
  level : String
  text : String
deriving DecidableEq

structure FlowEvidence where
  finalUrl : Option String
  title : Option String
  textSnippet : Option String
  console : List ConsoleLine
deriving DecidableEq

structure FlowRunRecord where
  orgId : OrgId
  targetId : Uuid
  timestamp : Time
  status : CheckStatus
  durationMs : Nat
  error : Option String
  steps : List StepTrace
  evidence : Option FlowEvidence
deriving DecidableEq

end Uptimepage
