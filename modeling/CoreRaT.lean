import CoreRaT.Lib.Run
import CoreRaT.Lib.Balance
import CoreRaT.Lib.Trace
import CoreRaT.Lib.LittleEndian
import CoreRaT.Lib.ByteOrder
import CoreRaT.Lib.Directory
import CoreRaT.Lib.LockedWriters
import CoreRaT.Lib.ByteMemory
import CoreRaT.Lib.MaskedRing
import CoreRaT.Lib.ProbeTable
import CoreRaT.Lib.FrameStream
import CoreRaT.Lib.HandleTable
import CoreRaT.Lib.WaitCounts
import CoreRaT.Lib.FirstBest
import CoreRaT.Lib.LruList
import CoreRaT.Lib.PriorityBag
import CoreRaT.Spec.Protocol
import CoreRaT.Spec.TcpSocket
import CoreRaT.Spec.TcpRouter
import CoreRaT.Spec.ConnectionRun
import CoreRaT.Spec.SendMutex
import CoreRaT.Spec.RouterThreads
import CoreRaT.Spec.RouterPair
import CoreRaT.Spec.RouterMesh
import CoreRaT.Spec.RouterNet
import CoreRaT.Spec.TimsMailbox
import CoreRaT.Spec.TimsNetwork
import CoreRaT.Spec.SharedMailbox
import CoreRaT.Spec.EvlRing
import CoreRaT.Spec.EvlRouter
import CoreRaT.Spec.RegistryLock
import CoreRaT.Spec.XbufBridge
import CoreRaT.Spec.ShmRing
import CoreRaT.Spec.RemoteHandles
import CoreRaT.Spec.PublicMailbox
import CoreRaT.Spec.MessageRegistry
import CoreRaT.Spec.Mailbox
import CoreRaT.Spec.Transports
import CoreRaT.Spec.LogSink
import CoreRaT.Spec.RtLogger
import CoreRaT.Spec.MailboxTable
import CoreRaT.Spec.LocalNode
import CoreRaT.Spec.MailboxResources
import CoreRaT.Spec.RingWaiters
import CoreRaT.Spec.SenderRing
import CoreRaT.Proofs.TcpSocket
import CoreRaT.Proofs.Router.Registry
import CoreRaT.Proofs.Router.Directory
import CoreRaT.Proofs.Router.Ownership
import CoreRaT.Proofs.Router.Outcome
import CoreRaT.Proofs.Run.Steps
import CoreRaT.Proofs.Run.Closed
import CoreRaT.Proofs.Run.Frames
import CoreRaT.Proofs.Run.Retired
import CoreRaT.Proofs.Framing
import CoreRaT.Proofs.Threads.Steps
import CoreRaT.Proofs.Threads.Matching
import CoreRaT.Proofs.Threads.Uninterrupted
import CoreRaT.Proofs.Threads.Publish
import CoreRaT.Proofs.Threads.Advertise
import CoreRaT.Proofs.Threads.Delete
import CoreRaT.Proofs.Threads.Routing
import CoreRaT.Proofs.Threads.Census
import CoreRaT.Proofs.Threads.Flow
import CoreRaT.Proofs.Threads.Handshake
import CoreRaT.Proofs.Pair.Steps
import CoreRaT.Proofs.Pair.Mesh
import CoreRaT.Proofs.Pair.Loop
import CoreRaT.Proofs.Pair.Delete
import CoreRaT.Proofs.Mesh.Steps
import CoreRaT.Proofs.Mesh.OneHop
import CoreRaT.Proofs.Mesh.InOrder
import CoreRaT.Proofs.Mesh.Learned
import CoreRaT.Proofs.Mesh.Order
import CoreRaT.Proofs.Upstream
import CoreRaT.Proofs.Net.Hops
import CoreRaT.Proofs.Net.Carried
import CoreRaT.Proofs.Net.Reply
import CoreRaT.Proofs.ReceiveRound
import CoreRaT.Proofs.Receive
import CoreRaT.Proofs.ByteOrder
import CoreRaT.Proofs.Ring.Slots
import CoreRaT.Proofs.Ring.Isolation
import CoreRaT.Proofs.Ring.Priority
import CoreRaT.Proofs.Ring.History
import CoreRaT.Proofs.Ring.Order
import CoreRaT.Proofs.Ring.Shm
import CoreRaT.Proofs.Ring.View
import CoreRaT.Proofs.Ring.Wakeup
import CoreRaT.Proofs.Evl.Tables
import CoreRaT.Proofs.Evl.Ingress
import CoreRaT.Proofs.Evl.Disconnect
import CoreRaT.Proofs.Evl.Agreement
import CoreRaT.Proofs.Evl.Deadlock
import CoreRaT.Proofs.Evl.Bridge
import CoreRaT.Proofs.Evl.Reach
import CoreRaT.Proofs.Evl.Start
import CoreRaT.Proofs.Ring.Layout
import CoreRaT.Proofs.Evl.Resources
import CoreRaT.Proofs.Evl.Handles
import CoreRaT.Proofs.Registry.Ids
import CoreRaT.Proofs.Registry.Automatic
import CoreRaT.Proofs.Registry.Expanded
import CoreRaT.Proofs.Registry.Table
import CoreRaT.Proofs.Registry.Local
import CoreRaT.Proofs.Registry.Collisions
import CoreRaT.Proofs.Mailbox
import CoreRaT.Proofs.Transports
import CoreRaT.Proofs.Addressing
import CoreRaT.Proofs.ReceiveErrors
import CoreRaT.Proofs.TornFrames
import CoreRaT.Proofs.Delivery
import CoreRaT.Proofs.SharedMailbox
import CoreRaT.Proofs.Log.History
import CoreRaT.Proofs.Log.Ring
import CoreRaT.Proofs.Log.Sink
import CoreRaT.Proofs.Log.Flush
import CoreRaT.Proofs.Ring.Admission
import CoreRaT.Proofs.Ring.SendPriority
import CoreRaT.Proofs.Ring.Clean
import CoreRaT.Proofs.Ring.Bag
import CoreRaT.Proofs.LocalService
import CoreRaT.Proofs.Descriptors
import CoreRaT.Proofs.CommandLine
import CoreRaT.Proofs.ObjectNames
import CoreRaT.Proofs.Log.Terminal
import CoreRaT.Proofs.Mesh.Conservation
