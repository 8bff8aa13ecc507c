import VermayAgent.Library.Table
import VermayAgent.Library.Txn
import VermayAgent.Library.Transition
import VermayAgent.Library.Json
import VermayAgent.Library.Lease
import VermayAgent.InvocationLedger
import VermayAgent.StoreFrames
import VermayAgent.EffectExecutions
import VermayAgent.TaskRows
import VermayAgent.RowEvents
import VermayAgent.CoreEvents
import VermayAgent.CoreTxns
import VermayAgent.RowCoupling
import VermayAgent.LocalExecution
import VermayAgent.WakeUps
import VermayAgent.CancellationSignals
import VermayAgent.Library.Connections
import VermayAgent.Library.Slot
import VermayAgent.CrossConnection
import VermayAgent.Continuations
import VermayAgent.TaskHistory
import VermayAgent.CoreHistory
import VermayAgent.AgentTxns
import VermayAgent.Library.Log
import VermayAgent.EventLogs
import VermayAgent.Projection
import VermayAgent.TaskStreams
import VermayAgent.StreamErrors
import VermayAgent.StreamDelivery
import VermayAgent.TaskFrames
import VermayAgent.StatusLaws
import VermayAgent.TaskAnswers
import VermayAgent.TaskRunner
import VermayAgent.OutcomeRecording
import VermayAgent.CancellationWins
import VermayAgent.SlicesAtRest
import VermayAgent.StartupReconciliation
import VermayAgent.Library.Timeline
import VermayAgent.TaskPresentation
import VermayAgent.TaskProjectionReducer
import VermayAgent.TaskLives
import VermayAgent.WebProjection
import VermayAgent.Library.IdempotencyKey
import VermayAgent.MessageDeliveries
import VermayAgent.Library.SharedState
import VermayAgent.StoreWrites
import VermayAgent.MessageSequences
import VermayAgent.TaskInputs
import VermayAgent.RemoteProxies
import VermayAgent.ProxyOutcomes
import VermayAgent.Library.Interference
import VermayAgent.RetryLineage
import VermayAgent.ContextOwnership
import VermayAgent.ContextDeletions
import VermayAgent.StoreTransactions
import VermayAgent.Library.Comparison
import VermayAgent.ConversationOrder
import VermayAgent.ContextHistory
import VermayAgent.ToolCallReferences
import VermayAgent.ArtifactProducers
import VermayAgent.FinalAnswers
import VermayAgent.Observations
import VermayAgent.ExecutionSummaries
import VermayAgent.ToolOutcomes
import VermayAgent.Library.JsonValue
import VermayAgent.Library.JsonText
import VermayAgent.Library.JsonRoundTrip
import VermayAgent.Library.Decimal
import VermayAgent.Library.Binary64
import VermayAgent.Library.JsonDialects
import VermayAgent.ArgumentRedaction
import VermayAgent.QueuedCommands
import VermayAgent.SseStreams
import VermayAgent.RouterSafety
import VermayAgent.Library.Parties
import VermayAgent.ThreadLocks
import VermayAgent.RunnerClose
import VermayAgent.EventNotifications
import VermayAgent.EventWaits
import VermayAgent.Library.Delimited
import VermayAgent.InvocationIdentity
import VermayAgent.Library.ShellTokens
import VermayAgent.Library.ShellCommands
import VermayAgent.RemoteKubernetes
import VermayAgent.KubernetesCalls
import VermayAgent.Library.QueryText
import VermayAgent.McpSelections
import VermayAgent.McpRoundTrip
import VermayAgent.Library.Budget
import VermayAgent.ExecutionGraph
import VermayAgent.ExecutionMoves
import VermayAgent.ExecutionBounds
import VermayAgent.ExecutionApprovals
import VermayAgent.ExecutionOutcomes
import VermayAgent.ExecutionMessages
import VermayAgent.Library.Resumption
import VermayAgent.Library.SqlSchema
import VermayAgent.StoreMigrations
import VermayAgent.StoreOpenings
import VermayAgent.StoreRetirement
import VermayAgent.IngressProtocol
import VermayAgent.IngressReplays
