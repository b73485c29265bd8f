import WfObserver.Lib.OrdMap
import WfObserver.Lib.Runs
import WfObserver.Lib.Ring
import WfObserver.Lib.Fallible
import WfObserver.Wire
import WfObserver.Wire.Encoding
import WfObserver.ProviderSdk
import WfObserver.ProviderSdk.Memory
import WfObserver.Protocol.Replica
import WfObserver.Protocol.Selection
import WfObserver.Protocol.Client
import WfObserver.Protocol.Delta
import WfObserver.Protocol.Patches
import WfObserver.Service.Queue
import WfObserver.Service.Batch
import WfObserver.Service.Catalog
import WfObserver.Service.Inner
import WfObserver.Service.Publication
import WfObserver.Service.Subscriptions
import WfObserver.Service.State
import WfObserver.Service.TestSupport
import WfObserver.Service.Frames
import WfObserver.Service.Stepwise
import WfObserver.Service.Staging
import WfObserver.Service.Transaction
import WfObserver.Service.Discard
import WfObserver.Service.Lifecycle
import WfObserver.Service.Topics
import WfObserver.Service.Store
import WfObserver.Service.Acceptance
import WfObserver.Service.Demand
import WfObserver.Service.Commit
import WfObserver.Service.Sweep
import WfObserver.Service.Mirror
import WfObserver.Service.Tales
import WfObserver.Service.Streams
import WfObserver.Service.Channels
import WfObserver.Service.Setup
import WfObserver.Sdk.Validation
import WfObserver.Sdk.Agreement
import WfObserver.Sdk.Feed
import WfObserver.Sdk.Reader
import WfObserver.Sdk.Peer
import WfObserver.Service.Effects
import WfObserver.Service.Ledger
import WfObserver.Service.Fencing
import WfObserver.Service.Reads
import WfObserver.Service.Counters
import WfObserver.Service.Exhaustion
import WfObserver.Transport.Delivery
import WfObserver.Transport.Lossless
import WfObserver.Transport.Connection
import WfObserver.Transport.Fitting
import WfObserver.Sdk.Listener
import WfObserver.Sdk.Hub
import WfObserver.Sdk.Listening
import WfObserver.Sdk.Account
import WfObserver.Lifecycle.Worker
import WfObserver.Lifecycle.Invariant
import WfObserver.Host.Resets
import WfObserver.Host.Retries
import WfObserver.Service.QueueLog
import WfObserver.Service.Poisoning
import WfObserver.Service.Retention
import WfObserver.Service.Coalescing
import WfObserver.Service.Rejections
import WfObserver.Service.Shifts
import WfObserver.Service.Retries
import WfObserver.Warframe.Chat
import WfObserver.Warframe.Chat.Turns
import WfObserver.Warframe.Chat.Batches
import WfObserver.Warframe.Chat.Acquisition
import WfObserver.Warframe.Chat.Lists
import WfObserver.Warframe.Chat.Gaps
import WfObserver.Warframe.Chat.Session
import WfObserver.Warframe.Chat.Conversations
import WfObserver.Warframe.Chat.Deliveries
import WfObserver.Warframe.Chat.Retained
import WfObserver.Warframe.Session.State
import WfObserver.Warframe.Session.Visual
import WfObserver.Warframe.Session.Polling
import WfObserver.Warframe.Session.Sinks
import WfObserver.Warframe.Session.Steps
import WfObserver.Warframe.Session.Account
import WfObserver.Warframe.Session.Ownership
import WfObserver.Warframe.Session.Acquisition
import WfObserver.Warframe.Session.Publishing
import WfObserver.Warframe.Session.Turns
import WfObserver.Warframe.Session.VisualSteps
import WfObserver.Warframe.Session.Screens
import WfObserver.Warframe.Session.VisualTurns
import WfObserver.Warframe.Session.Polls
import WfObserver.Warframe.Session.Batches
import WfObserver.Warframe.Provider
import WfObserver.Warframe.Acceptance
import WfObserver.Warframe.Session.Horizon
import WfObserver.Warframe.Session.Responsiveness
import WfObserver.Warframe.Model.Decimal
import WfObserver.Warframe.Model.Identifiers
import WfObserver.Warframe.RelicRewards
import WfObserver.ProviderSdk.Metered
import WfObserver.Warframe.StringPool
import WfObserver.Lib.Ascii
import WfObserver.Warframe.StringPool.Blocks
import WfObserver.ProviderSdk.Record
import WfObserver.Warframe.ItemType
import WfObserver.Warframe.ItemType.Caches
import WfObserver.Warframe.Roots
import WfObserver.Warframe.Roots.Selection
import WfObserver.Lib.Chunks
import WfObserver.Lib.Tally
import WfObserver.Warframe.Model.Inventory
import WfObserver.Warframe.ProfileInventory
import WfObserver.Warframe.Inventory
import WfObserver.Warframe.Mastery
import WfObserver.Warframe.Inventory.Conservation
import WfObserver.Warframe.Sparse
import WfObserver.Warframe.Inventory.Bounds
import WfObserver.Service.Payloads
import WfObserver.Service.Queues
