import Dsi.Message
import Dsi.Transport.Packets
import Dsi.Transport.Reassembly
import Dsi.Broker.Step
import Dsi.Broker.Frame
import Dsi.Lib.Run
import Dsi.Broker.Effects
import Dsi.Broker.Granted
import Dsi.Broker.Leftovers
import Dsi.Broker.Live
import Dsi.Lib.RefCount
import Dsi.Broker.PoolCount
import Dsi.Broker.Once
import Dsi.Broker.Availability
import Dsi.Broker.Watch
import Dsi.Broker.ServerGone
import Dsi.Broker.ClientGone
import Dsi.Broker.Detach
import Dsi.Broker.Monitor
import Dsi.Lib.Device
import Dsi.Transport.ScatterWrite
import Dsi.Transport.SendIov
import Dsi.Transport.AllEvents
import Dsi.Stream.Types
import Dsi.Lib.Comparison
import Dsi.Stream.Position
import Dsi.Stream.Overlay
import Dsi.Stream.Attributes
import Dsi.Stream.RoundTrip
import Dsi.Stream.Overwrite
import Dsi.Stream.Variant
import Dsi.Stream.Replication
import Dsi.Stream.Truncated
import Dsi.Stream.Buffer
import Dsi.Stream.Hostile
import Dsi.Lib.Sorting
import Dsi.Gen.UpdateIds
import Dsi.Gen.ResponseStates
import Dsi.Broker.Answers
import Dsi.Broker.AttachExtended
import Dsi.Broker.ServerTable
import Dsi.Broker.OwnPools
import Dsi.Broker.Holdings
import Dsi.Broker.Ownership
import Dsi.Broker.Admission
import Dsi.Broker.Access
import Dsi.Broker.Tree
import Dsi.Broker.ClientIDs
import Dsi.Broker.Uplinks
import Dsi.Broker.Moves
import Dsi.Lib.CLayout
import Dsi.Broker.Dispatch
import Dsi.Broker.Clientlib
import Dsi.Broker.RequestFormat
import Dsi.Broker.MasterReply
import Dsi.Lib.Scratch
import Dsi.Broker.Forwarding
import Dsi.Broker.AllOrNothing
import Dsi.Broker.Retained
import Dsi.Broker.ExactIDs
import Dsi.Broker.MasterIDs
import Dsi.Broker.PendingMarks
import Dsi.Broker.Names
import Dsi.Broker.ConfigFile
import Dsi.Broker.PulseChannels
import Dsi.Broker.NotificationPool
import Dsi.Lib.Vector
import Dsi.Lib.Partial
import Dsi.Server.State
import Dsi.Server.Requests
import Dsi.Server.Effects
import Dsi.Server.Connected
import Dsi.Server.Reached
import Dsi.Server.Subscribers
import Dsi.Server.Subscriptions
import Dsi.Server.Responses
import Dsi.Server.Busy
import Dsi.Server.Justified
import Dsi.Server.Unblocked
import Dsi.Server.Desk
import Dsi.Server.Isolation
import Dsi.Server.Sessions
import Dsi.Server.Generator
import Dsi.Server.Handshake
import Dsi.Lib.LinkedList
import Dsi.Broker.JobQueue
import Dsi.Broker.JobExchange
import Dsi.Common.Slist
import Dsi.Common.SlistRuns
import Dsi.Common.Dispatcher
import Dsi.Common.Removal
import Dsi.Broker.Clients
import Dsi.Broker.Registered
import Dsi.Broker.Recovery
import Dsi.Lib.Leases
import Dsi.Broker.PoolLeases
import Dsi.Broker.PoolGrants
import Dsi.Broker.InterfaceList
import Dsi.Broker.Contexts
import Dsi.Broker.FrameReader
import Dsi.Engine.Channels
import Dsi.Engine.Parties
import Dsi.Engine.Membership
import Dsi.Engine.Lookup
import Dsi.Client.ConnectSM
import Dsi.Client.DetachedOnce
import Dsi.Engine.Cleanup
import Dsi.Lib.InFlight
import Dsi.Stream.Updates
import Dsi.Server.Stub
import Dsi.Server.Announces
import Dsi.Client.Proxy
import Dsi.System.State
import Dsi.System.Settled
import Dsi.System.Replication
import Dsi.Server.StubRuns
import Dsi.Lib.Memory
import Dsi.Broker.Responses
import Dsi.Broker.ClientIo
import Dsi.Broker.Conversation
import Dsi.Broker.RequestPhase
import Dsi.Broker.ResponsePhase
import Dsi.Broker.CallsInOrder
