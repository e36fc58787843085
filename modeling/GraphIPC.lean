import GraphIPC.Base.Memory
import GraphIPC.Base.Circular
import GraphIPC.Base.Word
import GraphIPC.Base.HalfCircle
import GraphIPC.Base.Machine
import GraphIPC.Base.Agree
import GraphIPC.Base.Stream
import GraphIPC.Base.Cut
import GraphIPC.Base.Rotation
import GraphIPC.Base.Linked
import GraphIPC.Base.Probing
import GraphIPC.Base.Slots
import GraphIPC.Fault
import GraphIPC.Klib.Table
import GraphIPC.Klib.Khash
import GraphIPC.Klib.Flags
import GraphIPC.Klib.Lookup
import GraphIPC.Klib.Insert
import GraphIPC.Klib.Content
import GraphIPC.Klib.Rehash
import GraphIPC.Klib.Put
import GraphIPC.Klib.Run
import GraphIPC.Wire.Packet
import GraphIPC.Wire.GraphNetwork
import GraphIPC.Wire.Frame
import GraphIPC.Wire.Emit
import GraphIPC.Wire.LocalBuffer
import GraphIPC.Router.HandlePacket
import GraphIPC.Router.Request
import GraphIPC.Router.Forward
import GraphIPC.Router.Control
import GraphIPC.Router.RoundRobin
import GraphIPC.Router.Unknown
import GraphIPC.Router.HandleEvent
import GraphIPC.Router.Selection
import GraphIPC.Router.Process
import GraphIPC.Router.Connection
import GraphIPC.Router.Reassembly
import GraphIPC.Router.Binding
import GraphIPC.Router.Automatic
import GraphIPC.Router.Isolation
import GraphIPC.Router.Overflow
import GraphIPC.Router.Accept
import GraphIPC.Router.KhashTable
import GraphIPC.Router.KhashRouter
import GraphIPC.Router.Status
import GraphIPC.Node.LocalBuffer
import GraphIPC.Node.BufferMemory
import GraphIPC.Node.HandleRemoteData
import GraphIPC.Node.Remote
import GraphIPC.Node.Chunking
import GraphIPC.Node.HandlePacket
import GraphIPC.Node.HandleLocalData
import GraphIPC.Node.LocalStream
import GraphIPC.Node.Messages
import GraphIPC.Node.Sinks
import GraphIPC.Node.Streams
import GraphIPC.Node.Demux
import GraphIPC.Node.LocalAddress
import GraphIPC.Node.Dispatch
import GraphIPC.Node.Mux
import GraphIPC.Node.Watch
import GraphIPC.Node.FindRealPath
import GraphIPC.System.Commands
import GraphIPC.System.HostOrder
import GraphIPC.System.Link
import GraphIPC.System.Delivery
import GraphIPC.System.Routing
import GraphIPC.System.EndToEnd
import GraphIPC.System.Round
import GraphIPC.System.Attached
import GraphIPC.System.Network
import GraphIPC.System.Traffic
import GraphIPC.System.Integrity
import GraphIPC.System.Passing
import GraphIPC.System.Handshake
import GraphIPC.System.Connected
import GraphIPC.System.Pipeline
import GraphIPC.System.Fields
import GraphIPC.Lib.RingBuffer
import GraphIPC.Lib.RingPeek
import GraphIPC.Lib.LinkedList
import GraphIPC.Lib.Avl.Find
import GraphIPC.Lib.Avl.Probe
import GraphIPC.Lib.Avl.Delete
import GraphIPC.Tables.ForwardTable
import GraphIPC.Tables.EdgeList
import GraphIPC.Tables.IndexTable
import GraphIPC.Tables.TreeStack
import GraphIPC.Tables.NodeTable
