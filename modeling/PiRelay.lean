import PiRelay.AgentCore.InputConservation
import PiRelay.AgentCore.BatchCompletion
import PiRelay.AgentSession.ActionOutbox
import PiRelay.AgentSession.CompletionReports
import PiRelay.AgentSession.RuntimeReplacement
import PiRelay.AgentDaemon.ConsumedInputs
import PiRelay.AgentSession.InterruptAgreement
import PiRelay.AgentStore.DispatchFencing
import PiRelay.AgentStore.DelegationAdmission
import PiRelay.AgentStore.DelegationClosure
import PiRelay.AgentDaemon.DelegationBarrier
import PiRelay.AgentStore.QueueConsumption
import PiRelay.AgentStore.QueueOrder
import PiRelay.AgentStore.QueueRevisions
import PiRelay.AgentDaemon.DelegationWakeup
import PiRelay.AgentStore.BlockedModels
import PiRelay.AgentDaemon.Recompaction
import PiRelay.AgentDaemon.RetainedMessages
import PiRelay.AgentDaemon.ParentDrives
import PiRelay.AgentDaemon.DriverLocks
import PiRelay.AgentDaemon.EventDelivery
import PiRelay.AgentRuntime.ConnectLoop
import PiRelay.AgentProvider.CatalogRefreshes
import PiRelay.AgentProvider.ModelCache
import PiRelay.AgentProvider.CompactionEnding
import PiRelay.AgentProvider.RetainedSelection
import PiRelay.AgentTools.Output
import PiRelay.AgentTools.PatchedFiles
import PiRelay.AgentProvider.CallKinds
import PiRelay.AgentProvider.StreamOrder
import PiRelay.AgentMcpTypes.PersistedManifests
import PiRelay.AgentTools.FileMutation
import PiRelay.AgentRuntime.BaseLocks
import PiRelay.AgentDaemon.WorkspaceBrowse
import PiRelay.AgentDaemon.SessionStarts
import PiRelay.AgentDaemon.UsageAnchors
import PiRelay.AgentCore.DriveEnds
import PiRelay.AgentSession.TranscriptIndexes
import PiRelay.AgentStore.CompletedForks
import PiRelay.AgentStore.CyclicAncestry
import PiRelay.Web.FilePath
import PiRelay.Web.RouteRoundTrip
import PiRelay.Web.Rpc
import PiRelay.AgentRuntime.GitStatus
import PiRelay.Web.FileCache
import PiRelay.Web.SelectedSessionCache
import PiRelay.Web.UnifiedDiff
import PiRelay.AgentRuntime.SanitizedTree
import PiRelay.AgentTools.TextEditor
import PiRelay.AgentMcp.OAuthCredentials
import PiRelay.AgentProvider.SseFrames
