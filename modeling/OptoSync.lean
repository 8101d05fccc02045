import OptoSync.BackgroundSync
import OptoSync.BrowserConnectivity
import OptoSync.CanonicalForm
import OptoSync.CanonicalJson
import OptoSync.CleartextGuard
import OptoSync.CleartextGuardHosts
import OptoSync.ClientClock
import OptoSync.ConnectivityOverride
import OptoSync.Consecutive
import OptoSync.ConsistencyWrite
import OptoSync.ConsistencyWriteRun
import OptoSync.CoordinatorAgreement
import OptoSync.CoordinatorContract
import OptoSync.CoordinatorHosts
import OptoSync.CrossTab
import OptoSync.Decimal
import OptoSync.DesktopCoordinator
import OptoSync.DesktopDrain
import OptoSync.DesktopFencing
import OptoSync.DesktopRunner
import OptoSync.DesktopWakes
import OptoSync.DriftMigration
import OptoSync.DriftMigrationPush
import OptoSync.DriftPush
import OptoSync.DriftQueue
import OptoSync.FencedLease
import OptoSync.FencedLifecycle
import OptoSync.FixedWidth
import OptoSync.FrameCorrelation
import OptoSync.GleamQueue
import OptoSync.GleamQueueCodec
import OptoSync.HlcAgreement
import OptoSync.HlcOrder
import OptoSync.HostNames
import OptoSync.HybridLogicalClock
import OptoSync.HybridLogicalClockDrift
import OptoSync.HybridLogicalClockRun
import OptoSync.IndexedDbQueue
import OptoSync.IndexedDbQueueRun
import OptoSync.IngestAgreement
import OptoSync.IngestClock
import OptoSync.IngestEnvelope
import OptoSync.IngestGraphemes
import OptoSync.IngestPatterns
import OptoSync.IngestPorts
import OptoSync.IngestPortsAgreement
import OptoSync.IngestPortsShape
import OptoSync.IngestSchema
import OptoSync.InsertionOrder
import OptoSync.Interaction
import OptoSync.Json
import OptoSync.JsonDocument
import OptoSync.JsonPointer
import OptoSync.JsonText
import OptoSync.LiveHints
import OptoSync.LiveHintsIsolation
import OptoSync.OfflineViews
import OptoSync.OptimisticWrite
import OptoSync.PhpClient
import OptoSync.PhpClientCursor
import OptoSync.PolicyAliases
import OptoSync.PolicyRefusal
import OptoSync.Protocol
import OptoSync.ProtocolQueue
import OptoSync.ProtocolQueueAcknowledge
import OptoSync.ProtocolQueueDurable
import OptoSync.ProtocolQueueLedger
import OptoSync.ProtocolQueueMerge
import OptoSync.ProtocolQueueMergeRun
import OptoSync.ProtocolQueueRun
import OptoSync.ProtocolQueueTracks
import OptoSync.ProtocolQueueValid
import OptoSync.ProtocolQueueWire
import OptoSync.ProtocolScheduler
import OptoSync.ProtocolSyncLoop
import OptoSync.ProtocolSyncLoopRun
import OptoSync.ProtocolSyncLoopWakes
import OptoSync.PublicationLease
import OptoSync.PublicationLeaseSafety
import OptoSync.PullPage
import OptoSync.PullPageAgreement
import OptoSync.PushAcknowledgement
import OptoSync.PushAcknowledgementAgreement
import OptoSync.ReactiveRecord
import OptoSync.ReadModel
import OptoSync.ReadModelAgreement
import OptoSync.ReadModelDelivery
import OptoSync.ReadModelSeparation
import OptoSync.RecordController
import OptoSync.RecordEvents
import OptoSync.ReplayLog
import OptoSync.RetryDelay
import OptoSync.RustClientStamping
import OptoSync.ServerLog
import OptoSync.SharedClock
import OptoSync.SocketClosure
import OptoSync.SocketTransport
import OptoSync.SqliteAcknowledgement
import OptoSync.SqliteDrain
import OptoSync.SqliteDrivers
import OptoSync.SqliteLocalView
import OptoSync.SqliteSessions
import OptoSync.SqliteStore
import OptoSync.SqliteTransactions
import OptoSync.StampedQueue
import OptoSync.StreamMessage
import OptoSync.StreamMessageGo
import OptoSync.StreamTranscript
import OptoSync.StreamTranscriptAgreement
import OptoSync.SyncDriver
import OptoSync.SyncDriverAgreement
import OptoSync.SyncDriverContract
import OptoSync.SyncLifecycle
import OptoSync.SyncLoopDrivers
import OptoSync.SyncWakePipeline
import OptoSync.TextOrder
import OptoSync.TimestampSelectors
import OptoSync.Transition
import OptoSync.Utf16
import OptoSync.WebSocketCorrelation
import OptoSync.WebSocketTransport
import OptoSync.StreamLine
import OptoSync.FormalManifest
import OptoSync.FormalPlan
import OptoSync.CanonicalNormalForm
import OptoSync.CanonicalShape
import OptoSync.FormFields
import OptoSync.FormPayload
import OptoSync.HtmxForm
import OptoSync.LeaseMachine
import OptoSync.LeaseMachineRestore
import OptoSync.RidlFrame
import OptoSync.RidlFrameCodec
import OptoSync.RidlRpc
import OptoSync.StreamDecodeGo
import OptoSync.StreamRoundTripGo
import OptoSync.StreamSession
import OptoSync.BoundedLines
import OptoSync.JavaDecimal
import OptoSync.OutputCapture
import OptoSync.StrictJsonComplete
import OptoSync.StrictJsonDigits
import OptoSync.StrictJsonExact
import OptoSync.RpcServerRun
import OptoSync.ServiceWorkerSync
import OptoSync.SessionLifecycleRun
