import Concord.Asyncio.TaskPolicies
import Concord.Asyncio.RelyGuarantee
import Concord.Asyncio.Views
import Concord.Asyncio.Runs
import Concord.Asyncio.OwnSteps
import Concord.Asyncio.Families
import Concord.Asyncio.Visits
import Concord.Asyncio.Triples
import Concord.Asyncio.Progress
import Concord.Models
import Concord.Binary.Decoder
import Concord.Binary.Readers
import Concord.Json.Printing
import Concord.Json.Parsing
import Concord.Json.Fields
import Concord.Collaboration.Document
import Concord.Collaboration.DocumentProtocol
import Concord.Collaboration.DocumentMethods
import Concord.Collaboration.DocumentSpecs
import Concord.Collaboration.DocumentService
import Concord.Collaboration.Retention
import Concord.Collaboration.GuardMutex
import Concord.Collaboration.GuardRuns
import Concord.Collaboration.StorageOrder
import Concord.Collaboration.SnapshotRestore
import Concord.Collaboration.Presence
import Concord.Collaboration.PresenceRules
import Concord.Collaboration.AwarenessJoin
import Concord.Collaboration.Protocol
import Concord.Collaboration.Frames
import Concord.Collaboration.StrictFrames
import Concord.Collaboration.AwarenessFrames
import Concord.Collaboration.ServerFrames
import Concord.Server.State
import Concord.Server.Sessions
import Concord.Server.WebSocket
import Concord.Server.Endpoints
import Concord.Server.System
import Concord.Server.HandlerRules
import Concord.Server.RoomProtocol
import Concord.Server.Rooms
import Concord.Server.Durability
import Concord.Server.Saves
import Concord.Server.AuthorityProtocol
import Concord.Server.AuthoritySteps
import Concord.Server.AuthorityEndpoints
import Concord.Server.Authority
import Concord.Server.Fences
import Concord.Server.Frozen
import Concord.Server.Ownership
import Concord.Server.SizeLimits
import Concord.Server.HandlerPass
import Concord.Server.Retention
import Concord.Server.Acknowledgements
import Concord.Server.Snapshots
import Concord.Server.Restores
import Concord.Server.LockOrder
import Concord.Server.Rest
import Concord.Server.Connections
import Concord.Server.ConnectionSteps
import Concord.Server.ConnectionSends
import Concord.Server.ConnectionEndpoints
import Concord.Server.ConnectionHandlers
import Concord.Server.SendFences
import Concord.Server.Ghosts
import Concord.Server.Mirrors
import Concord.Server.Deliveries
import Concord.Server.DeliveryRules
import Concord.Server.DeliveryDocuments
import Concord.Server.DeliveryEndpoints
import Concord.Server.DeliveryHandlers
import Concord.Server.Convergence
import Concord.Server.FenceProtocol
import Concord.Server.FenceConnections
import Concord.Server.FenceExact
import Concord.Execution.Output
import Concord.Execution.Characters
import Concord.Execution.Streaming
import Concord.Execution.Events
import Concord.Execution.EventFrames
import Concord.Execution.State
import Concord.Execution.Worker
import Concord.Execution.Cleanup
import Concord.Execution.Service
import Concord.Execution.Jobs
import Concord.Execution.JobRules
import Concord.Execution.WorkerRules
import Concord.Execution.Lifecycle
import Concord.Execution.Beside
import Concord.Execution.JobTriples
import Concord.Execution.OutputSize
import Concord.Execution.Outcomes
import Concord.Execution.Submissions
import Concord.Execution.Provenance
import Concord.Client.Edits
import Concord.Client.MonacoBinding
import Concord.Client.RemoteCursors
import Concord.Client.Executions
import Concord.Client.ServerMessages
import Concord.Client.OutputPanel
import Concord.Client.SaveStatus
import Concord.Client.SavedIndicator
import Concord.Client.Comparisons
import Concord.Client.SettledIndicator
