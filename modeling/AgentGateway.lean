import AgentGateway.Admission
import AgentGateway.ApprovalDelivery
import AgentGateway.ApprovalStore.Finality
import AgentGateway.ApprovalStore.RawPatchRuns
import AgentGateway.ApprovalStore.Reissue
import AgentGateway.AuthorityCache
import AgentGateway.BatchApprovals.Freeze
import AgentGateway.CellBatches
import AgentGateway.Checklist
import AgentGateway.ContextBuilder.Transcript
import AgentGateway.EventBus.Accounting
import AgentGateway.EventChannel.Agreement
import AgentGateway.ForkLedger.Admissions
import AgentGateway.ForkLedger.Receipts
import AgentGateway.LaunchNonce
import AgentGateway.Schedules.NextRun
import AgentGateway.Schedules.Runs
import AgentGateway.SecretBoundary.Walk
import AgentGateway.SessionLog
import AgentGateway.Spill.Budget
import AgentGateway.Spill.Read
import AgentGateway.TaskRegistry.Custody
import AgentGateway.TaskRegistry.Notifications
import AgentGateway.UsageOutbox.ReconciliationRuns
import AgentGateway.UsageResilience.Incidents
