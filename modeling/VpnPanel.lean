import VpnPanel.Theorems.RevokedKeys
import VpnPanel.Theorems.TombstoneHistory
import VpnPanel.Backend.Accounts
import VpnPanel.Theorems.StickyBlock
import VpnPanel.Backend.Observations
import VpnPanel.Backend.Metering
import VpnPanel.Theorems.TrafficAccounting
import VpnPanel.Backend.Agreement
import VpnPanel.Theorems.StatesAgree
import VpnPanel.Worker.World
import VpnPanel.Backend.Holding
import VpnPanel.Theorems.AddressExclusivity
import VpnPanel.Theorems.AccountRevocation
import VpnPanel.Lib.Tally
import VpnPanel.Backend.Conservation
import VpnPanel.Theorems.TrafficConservation
import VpnPanel.Backend.Operations
import VpnPanel.Backend.Webhook
import VpnPanel.Worker.Jobs
import VpnPanel.Worker.Bookkeeping
import VpnPanel.Theorems.OperationStatus
import VpnPanel.Theorems.JobRetries
import VpnPanel.Theorems.TrackedCommands
import VpnPanel.Theorems.RecoveryPass
import VpnPanel.Lib.Separated
import VpnPanel.Theorems.WebhookEvents
import VpnPanel.Backend.Departures
import VpnPanel.Theorems.ReconcileRepeat
import VpnPanel.Backend.Leaving
import VpnPanel.Theorems.ConfirmedPurge
import VpnPanel.Lib.Paging
import VpnPanel.Worker.FullReconcile
import VpnPanel.Theorems.ReconcileStale
import VpnPanel.Backend.SyncSession
import VpnPanel.Theorems.AtomicResult
import VpnPanel.Theorems.AccountStanding
import VpnPanel.Events.Stream
import VpnPanel.Theorems.WakeUps
import VpnPanel.Theorems.Coalescing
import VpnPanel.Theorems.TransactionTree
import VpnPanel.Theorems.PageState
import VpnPanel.Theorems.PollTimer
import VpnPanel.Theorems.ConfigFile
import VpnPanel.Theorems.AffectedNodes
import VpnPanel.Worker.Fleet
import VpnPanel.Theorems.Readiness
import VpnPanel.Theorems.DeadlockFreedom
import VpnPanel.Theorems.StreamLatch
import VpnPanel.Lib.Text
import VpnPanel.Node.Config
import VpnPanel.Theorems.InterfaceUnchanged
import VpnPanel.UserPage.EventSources
import VpnPanel.Lib.Columns
import VpnPanel.Backend.Migration
import VpnPanel.Theorems.DeviceMigration
import VpnPanel.Backend.ClientConfig
import VpnPanel.Backend.Downloads
import VpnPanel.Theorems.DownloadIsolation
import VpnPanel.UserPage.QrCache
import VpnPanel.Theorems.QrOwnership
import VpnPanel.Lib.Base64
import VpnPanel.Node.DeletePeer
import VpnPanel.Theorems.PeerRemoval
import VpnPanel.Theorems.SyncIsolation
import VpnPanel.Theorems.MessageSettlement
import VpnPanel.Theorems.ListingEnd
import VpnPanel.Theorems.UpsertState
import VpnPanel.Theorems.ReimportRepeat
import VpnPanel.Node.Interface
import VpnPanel.Worker.NodeAgent
import VpnPanel.Theorems.SnapshotConverges
import VpnPanel.Backend.Amnezia
import VpnPanel.Theorems.ShareFormats
import VpnPanel.Lib.Json
import VpnPanel.Lib.Pack
import VpnPanel.Backend.ProvisionRecovery
import VpnPanel.Theorems.ProvisionRecovery
import VpnPanel.Theorems.ImportNames
import VpnPanel.Backend.OwnerRequests
import VpnPanel.Backend.OwnerAlone
import VpnPanel.Theorems.DeviceLimit
import VpnPanel.Backend.NodeInterface
import VpnPanel.Theorems.AllocatedAddresses
import VpnPanel.Backend.TelegramProxy
import VpnPanel.Theorems.Endpoints
import VpnPanel.Lib.FreshNames
import VpnPanel.Backend.ConfigArchive
import VpnPanel.Theorems.ConfigArchive
import VpnPanel.Lib.Unicode
import VpnPanel.UserPage.DeviceNames
import VpnPanel.Theorems.DeviceNames
import VpnPanel.Lib.Spans
import VpnPanel.Backend.EndpointSessions
import VpnPanel.Theorems.EndpointTimeline
import VpnPanel.Backend.EndpointSessions
import VpnPanel.Lib.Hex
import VpnPanel.Lib.Percent
import VpnPanel.Lib.Lowering
import VpnPanel.Lib.Replace
import VpnPanel.Backend.ProxyLinks
import VpnPanel.Theorems.ProxyLinks
import VpnPanel.Backend.ProxySettings
import VpnPanel.Backend.ProxyTables
import VpnPanel.Theorems.ProxyPages
import VpnPanel.Node.MtProxy
import VpnPanel.Worker.ProxyJobs
import VpnPanel.Worker.ProxyWorld
import VpnPanel.Theorems.ProxyContract
import VpnPanel.Theorems.ProxyRuns
import VpnPanel.Lib.Grouping
import VpnPanel.Backend.Retention
import VpnPanel.Backend.DailyTraffic
import VpnPanel.Backend.Resampled
import VpnPanel.Theorems.TrafficGraph
import VpnPanel.Theorems.SampleRetention
import VpnPanel.Backend.References
import VpnPanel.Theorems.References
import VpnPanel.Lib.Integer
import VpnPanel.Lib.Labelled
import VpnPanel.Node.AwgShow
import VpnPanel.Worker.AgentTexts
import VpnPanel.Theorems.AgentTexts
import VpnPanel.Backend.WebhookRequest
