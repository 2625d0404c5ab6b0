import Uptimepage.Store.ClosingUpdate
import Uptimepage.Escalation.Generation
import Uptimepage.Escalation.Halt
import Uptimepage.Escalation.Reopen
import Uptimepage.Escalation.Watched
import Uptimepage.Writer.Lookback
import Uptimepage.Writer.Overlap
import Uptimepage.Pipeline.StoredOnce
import Uptimepage.Agent.Admission
import Uptimepage.Agent.FlowRuns
import Uptimepage.Silence.Sweep
import Uptimepage.Api.Idempotency
import Uptimepage.Dispatch.AdHoc
import Uptimepage.Targets.HeartbeatKind
import Uptimepage.Subscribers.Deliveries
import Uptimepage.StatusPages.DetailLink
import Uptimepage.Channels.LinkCodes
import Uptimepage.Channels.Verification
import Uptimepage.Mail.Caps
import Uptimepage.Quotas.RateLimit
import Uptimepage.Orgs.Slugs
import Uptimepage.Domain.OnCallOrder
import Uptimepage.Notifier.Text
import Uptimepage.Escalation.Responders
import Uptimepage.Orgs.Rearm
import Uptimepage.Telegram.Budget
import Uptimepage.Writer.Steady
import Uptimepage.Escalation.Retries
import Uptimepage.StatusPages.PageCache
import Uptimepage.Policies.Bound
import Uptimepage.Variables.Deletes
import Uptimepage.Store.Simulation
import Uptimepage.Writer.Quorum
import Uptimepage.Worker.HostThrottle
import Uptimepage.Worker.RdapSingleflight
import Uptimepage.Worker.BreakerPool
import Uptimepage.Writer.Walk
import Uptimepage.Heartbeat.History
import Uptimepage.Heartbeat.Convergence
import Uptimepage.Agent.PullEtag
import Uptimepage.Quotas.HoldSweep
import Uptimepage.Security.Abuse
import Uptimepage.Web.ClientIp
import Uptimepage.Targets.Resubmit
import Uptimepage.Worker.DomainExpiry
import Uptimepage.Writer.Recovery
import Uptimepage.StatusPages.Strip
import Uptimepage.Api.ScrubUrl
import Uptimepage.Targets.BulkFaithful
import Uptimepage.Store.ConfirmedDowntime
import Uptimepage.Secrets.Export
import Uptimepage.Secrets.Channels
import Uptimepage.Worker.Flow
import Uptimepage.Worker.OffOrigin
import Uptimepage.Auth.Superseded
import Uptimepage.OAuth.Retry
import Uptimepage.Invitations.Redeem
import Uptimepage.Scheduler.Grid
import Uptimepage.Security.Ssrf
import Uptimepage.Escalation.AllClear
import Uptimepage.Escalation.RungTargets
import Uptimepage.StatusPages.Grouping
import Uptimepage.Writer.Diagnosis
import Uptimepage.Writer.Displayed
import Uptimepage.Escalation.Redaction
import Uptimepage.Heartbeat.Tokens
import Uptimepage.Escalation.Ladder
import Uptimepage.Variables.Resolve
