import NetStack.Lib.Machine
import NetStack.Lib.FinArray
import NetStack.Lib.Memory
import NetStack.Lib.Rtos
import NetStack.Lib.Session
import NetStack.Lib.Chunks
import NetStack.Utility.Endian
import NetStack.Utility.NetTypes
import NetStack.Utility.Checksum
import NetStack.Utility.Proofs.Checksum
import NetStack.Lib.OnesComplement
import NetStack.Utility.Proofs.InternetChecksum
import NetStack.Icmpv4.Echo
import NetStack.Ipv4.Input
import NetStack.Ipv4.Transmit
import NetStack.Eth.Transmit
import NetStack.Eth.Encoding
import NetStack.Ipv4.Encoding
import NetStack.Arp.Types
import NetStack.Arp.Input
import NetStack.Arp.Worker
import NetStack.Arp.Encoding
import NetStack.WifiManager.Receive
import NetStack.Arp.System
import NetStack.Arp.Proofs.Pending
import NetStack.Arp.Proofs.Waiters
import NetStack.Arp.Proofs.Notifications
import NetStack.Arp.Proofs.Announced
import NetStack.Arp.Proofs.QueueSet
import NetStack.Arp.Proofs.Resolution
import NetStack.Arp.Proofs.Reads
import NetStack.Arp.Proofs.Cache
import NetStack.Arp.Proofs.Timeouts
import NetStack.WifiManager.Proofs.FrameBounds
import NetStack.Tcp.Types
import NetStack.Tcp.Globals
import NetStack.Tcp.Send
import NetStack.Tcp.Input
import NetStack.Tcp.Commands
import NetStack.Tcp.Task
import NetStack.Tcp.System
import NetStack.Tcp.Proofs.Lookup
import NetStack.Tcp.Proofs.Quiet
import NetStack.Tcp.Proofs.Operations
import NetStack.Tcp.Proofs.Outcomes
import NetStack.Tcp.Proofs.Effects
import NetStack.Tcp.Proofs.Scan
import NetStack.Tcp.Proofs.StepEffects
import NetStack.Tcp.Proofs.Datagram
import NetStack.Tcp.Proofs.Requests
import NetStack.Tcp.Proofs.Acceptance
import NetStack.Tcp.Proofs.Waiting
import NetStack.Tcp.Proofs.Moves
import NetStack.Tcp.Proofs.Keys
import NetStack.Tcp.Proofs.FreeSlots
import NetStack.Tcp.Proofs.Transitions
import NetStack.Tcp.Proofs.Establishment
import NetStack.Tcp.Proofs.PureAcks
import NetStack.Tcp.Proofs.Closing
import NetStack.Tcp.Proofs.Grammar
import NetStack.Tcp.Proofs.Delivery
import NetStack.Tcp.Proofs.Custody
import NetStack.Tcp.Proofs.ControlSegments
import NetStack.Tcp.Proofs.Lifetimes
import NetStack.Tcp.Proofs.Payloads
import NetStack.Tcp.Proofs.Slots
import NetStack.Tcp.Proofs.Isolation
import NetStack.Tcp.Proofs.Acknowledgement
import NetStack.Tcp.Proofs.SerialNumbers
import NetStack.Tcp.Proofs.Unacceptable
import NetStack.Tcp.Proofs.Uniqueness
import NetStack.Tcp.Proofs.Callbacks
import NetStack.Tcp.Proofs.Tiling
import NetStack.Tcp.Proofs.Releases
import NetStack.Tcp.Proofs.Crossings
import NetStack.Tcp.Proofs.SegmentEncoding
import NetStack.Tcp.Proofs.Duplicates
import NetStack.Tcp.Proofs.Rejections
import NetStack.Tcp.Proofs.CloseCommands
import NetStack.Lib.Ownership
import NetStack.Lib.QueueSet
import NetStack.Lib.Agreement
import NetStack.Tcp.Proofs.Primitives
import NetStack.Tcp.Proofs.Accounts
import NetStack.Tcp.Proofs.StepAccounts
import NetStack.Tcp.Proofs.QueueSet
import NetStack.Ipv4.Task
import NetStack.Ipv4.Proofs.Ownership
import NetStack.Ipv4.Proofs.RoundTrip
import NetStack.Ipv4.Proofs.Acceptance
import NetStack.Lib.Reading
import NetStack.Lib.FifoMap
import NetStack.Ipv4.Proofs.PacketBounds
import NetStack.Icmpv4.Proofs.Ping
import NetStack.Udp.Types
import NetStack.Udp.Datagram
import NetStack.Udp.Encoding
import NetStack.Udp.System
import NetStack.Udp.Proofs.Demultiplexing
import NetStack.Udp.Proofs.QueueSet
import NetStack.Udp.Ownership
import NetStack.Udp.Proofs.Ownership
import NetStack.WorkerTasks
import NetStack.Encoders
import NetStack.StaleMemory
import NetStack.TransmitLengths
import NetStack.Tcp.Proofs.SegmentBounds
import NetStack.Lib.Service
import NetStack.Arp.Proofs.Service
import NetStack.Tcp.Proofs.Service
import NetStack.Udp.Proofs.Service
import NetStack.WorkerService
import NetStack.Lib.Streams
import NetStack.Tcp.Proofs.SentTiles
import NetStack.Tcp.Proofs.Inbox
import NetStack.Tcp.Proofs.Reading
import NetStack.Tcp.Proofs.Addresses
import NetStack.Arp.Proofs.Calls
import NetStack.Arp.Proofs.Speech
import NetStack.Arp.Proofs.Response
import NetStack.Node.System
import NetStack.Node.Proofs.Steps
import NetStack.Node.Proofs.Packets
import NetStack.Node.Proofs.TransmitQueue
import NetStack.Node.Proofs.Frames
import NetStack.Node.Proofs.Deliveries
import NetStack.Node.Proofs.Progress
import NetStack.Network.System
import NetStack.Network.Proofs.Steps
import NetStack.Network.Proofs.Streams
import NetStack.Network.Proofs.Stations
