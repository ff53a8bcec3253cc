import Gamin.Library.Runs
import Gamin.Library.SortedSearch
import Gamin.Library.Memory
import Gamin.Library.Framing
import Gamin.Protocol
import Gamin.PacketStream
import Gamin.Client.Requests
import Gamin.Client.RequestOrder
import Gamin.Client.Events
import Gamin.Client.Api
import Gamin.Client.Delivery
import Gamin.Client.Sessions
import Gamin.Server.Connection
import Gamin.Server.Reassembly
import Gamin.Server.Subscription
import Gamin.Inotify.Names
import Gamin.Inotify.Kernel
import Gamin.Inotify.Paths
import Gamin.Inotify.Backend
import Gamin.Inotify.WatchTables
import Gamin.Inotify.Liveness
import Gamin.Inotify.Soundness
import Gamin.Inotify.DirTree
import Gamin.Inotify.Placement
import Gamin.Inotify.Settling
import Gamin.Inotify.World
import Gamin.Inotify.Tracking
import Gamin.Inotify.Changes
import Gamin.Inotify.Dispatching
import Gamin.Inotify.Scanning
import Gamin.Inotify.Completeness
import Gamin.Polling.Basic
import Gamin.Client.Locking
import Gamin.Client.NextEvent
import Gamin.Client.Reconnect
import Gamin.Client.Restart
import Gamin.Client.Numbers
import Gamin.Inotify.Partition
import Gamin.Polling.Dnotify
import Gamin.Polling.Registration
import Gamin.Server.Backends
import Gamin.Server.Acceptance
import Gamin.Inotify.MoveQueue
import Gamin.Library.Mutex
import Gamin.Inotify.Locks
import Gamin.Server.Requests
import Gamin.Link.Sending
import Gamin.Link.Wire
import Gamin.Link.Requests
import Gamin.Server.Outgoing
import Gamin.Polling.Scanning
import Gamin.Inotify.Registry
import Gamin.Polling.Removal
import Gamin.Server.Removal
import Gamin.Server.References
import Gamin.Server.Daemon
import Gamin.Server.Ownership
import Gamin.Polling.Staying
import Gamin.Server.Attachment
import Gamin.Server.Intake
import Gamin.Server.Survival
import Gamin.Inotify.MoveHistory
import Gamin.Inotify.MovePairing
import Gamin.Client.Failures
import Gamin.Library.Writing
import Gamin.Link.Streams
import Gamin.Inotify.PathIndex
import Gamin.Library.Precedence
import Gamin.Server.Configuration
import Gamin.Polling.BasicRules
import Gamin.Polling.ResourceLists
import Gamin.Polling.TreeShape
import Gamin.Kqueue.Monitors
import Gamin.Kqueue.Backend
import Gamin.Kqueue.Tables
import Gamin.Kqueue.Files
import Gamin.Kqueue.Walks
import Gamin.Kqueue.Modes
import Gamin.Kqueue.Transitions
import Gamin.Kqueue.Accounts
import Gamin.Kqueue.Runs
import Gamin.Polling.DnotifyRules
import Gamin.Inotify.Ancestors
import Gamin.Library.LongestFirst
import Gamin.Server.MountLookup
import Gamin.Client.DeliveryBounds
import Gamin.Server.RequestBounds
import Gamin.Library.Coalescing
import Gamin.Server.QueueTimers
import Gamin.Polling.InitialEvents
import Gamin.Polling.Rooted
import Gamin.Polling.Leaks
import Gamin.Polling.KeptEntries
import Gamin.Client.Cancellation
import Gamin.Polling.Entries
import Gamin.Polling.DnotifyRuns
import Gamin.Inotify.EventStream
import Gamin.Library.RateLimits
import Gamin.Polling.RateLimit
import Gamin.Server.ConfigurationLines
import Gamin.Kqueue.DeferredUpdates
import Gamin.Kqueue.DirectoryChanges
import Gamin.Server.Authentication
import Gamin.Polling.DescriptorTables
import Gamin.Polling.EntryNames
import Gamin.Library.IndexWalks
import Gamin.Polling.ListWalks
import Gamin.Client.RequestArray
import Gamin.Library.LinkedTrees
import Gamin.Polling.PathTree
import Gamin.Polling.PathTreeRules
import Gamin.Polling.PathTreeRuns
import Gamin.Library.Presence
import Gamin.Polling.ChildReports
import Gamin.Polling.ChildClients
import Gamin.Polling.ChildRegistrations
import Gamin.Polling.ChildRuns
import Gamin.Library.Occupancy
import Gamin.Polling.FlowControl
import Gamin.Polling.FlowPolls
import Gamin.Polling.FlowRules
import Gamin.Polling.FlowRuns
import Gamin.Library.Interference
import Gamin.Rendezvous.Names
import Gamin.Rendezvous.SocketDirectory
import Gamin.Rendezvous.SecureSockets
import Gamin.Rendezvous.Processes
import Gamin.Rendezvous.Steps
import Gamin.Rendezvous.OneServer
import Gamin.Rendezvous.IdleExit
import Gamin.Rendezvous.Connecting
import Gamin.Inotify.Draining
import Gamin.Hurd.Backend
import Gamin.Hurd.Tree
import Gamin.Hurd.Removal
import Gamin.Hurd.Runs
import Gamin.Hurd.Exactness
import Gamin.Hurd.AfterRemoval
import Gamin.Polling.DnotifySignals
import Gamin.Kqueue.Pollers
import Gamin.Kqueue.PollerRuns
