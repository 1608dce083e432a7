import CodexBridge.Mailbox.Projection
import CodexBridge.Mailbox.Races
import CodexBridge.Mailbox.Arrivals
import CodexBridge.Mailbox.Versions
import CodexBridge.Completion.Drivers
import CodexBridge.Heartbeat.Silence
import CodexBridge.Execution.CrashRuns
import CodexBridge.Execution.RoundTrip
import CodexBridge.Dispatch.Chains
import CodexBridge.Dispatch.Refusals
import CodexBridge.Dispatch.MailboxRelease
import CodexBridge.Dispatch.Deliveries
import CodexBridge.Dispatch.Handovers
import CodexBridge.Dispatch.Cancellations
import CodexBridge.Providers.AnchorGates
import CodexBridge.Providers.Splitting
import CodexBridge.Providers.Resumption
import CodexBridge.Daemon.Takeovers
import CodexBridge.Daemon.RecordedGenerations
import CodexBridge.Daemon.StopRaces
import CodexBridge.Dispatch.Shutdowns
import CodexBridge.Dispatch.CallbackEnds
import CodexBridge.Storage.BackwardScans
import CodexBridge.Watch.Clients
import CodexBridge.Layout.RoundTrip
import CodexBridge.Reload.AllOrNothing
import CodexBridge.Dispatch.RetryBudgets
import CodexBridge.Reload.Coverage
import CodexBridge.Reload.Layouts
import CodexBridge.Reload.Drain
import CodexBridge.Agents.Fencing
import CodexBridge.Storage.TextArtifacts
import CodexBridge.Providers.SessionLogs
import CodexBridge.Providers.MarkedReplies
import CodexBridge.Providers.Timeouts
import CodexBridge.Providers.StartCommands
import CodexBridge.Dispatch.StaleHeads
import CodexBridge.Dispatch.CrashPoints
import CodexBridge.Dispatch.TickProgress
