import NetStack.Arp.Encoding
import NetStack.Icmpv4.Echo
import NetStack.Ipv4.Transmit
import NetStack.Tcp.Send
import NetStack.Udp.Datagram

/-!
# The encoders of the stack

Each function that serializes something, followed by what becomes of it down to the driver: a
packet that a transport protocol queues is sent by `internal_send_ipv4_packet`. What the function
is called with, what the environment decides, and what the memory contains that the functions get
from the stack and the heap stand apart, so that two runs can differ in the last alone.
-/

namespace NetStack
open NetStack.Lib

/-- The initial contents of all memory that an encoder gets: the stack buffer of an ARP packet, the
    block of a transport datagram, and the blocks of the IPv4 packet and the Ethernet frame. -/
structure Buffers where
  stack : Memory
  datagram : Block
  packet : Memory
  frame : Memory

/-- What the environment decides otherwise: which allocations succeed, whether the IPv4 queue
    accepts the packet, and the results of `arp_get_mac_addr` and `wifi_tx_raw`. -/
structure Outcomes where
  datagram : Bool
  packet : Bool
  frame : Bool
  ipv4Accepts : Bool
  arpGetMacAddr : Except EspErr MacAddr
  wifiTxRaw : EspErr

/-- What `malloc` returns, `none` for `NULL`. -/
def granted {α : Type} (ok : Bool) (block : α) : Option α := if ok then some block else none

/-- The choices of `eth_tx`. -/
def Outcomes.eth (o : Outcomes) (b : Buffers) : Eth.EthEnv :=
  ⟨granted o.frame b.frame, o.wifiTxRaw⟩

/-- The choices of `internal_send_ipv4_packet`. -/
def Outcomes.send (o : Outcomes) (b : Buffers) : Ipv4.SendEnv :=
  ⟨granted o.packet b.packet, o.arpGetMacAddr, o.eth b⟩

/-- The frame that becomes of a packet, if any. -/
def packetFrames (selfNet : NetContext) (params : Ipv4TransmitParams) (o : Outcomes)
    (b : Buffers) : List (List (BitVec 8)) :=
  ((Ipv4.internalSendIpv4Packet selfNet params (o.send b)).frame.map Eth.Frame.content).toList

/-- The packet that an event of TCP puts into the IPv4 queue. -/
def Tcp.Event.packet? : Tcp.Event → Option Ipv4TransmitParams
  | .transmit t => if t.accepted then some t.ipv4 else none
  | _ => none

/-- The packets that TCP has put into the IPv4 queue since its history was `before`. -/
def Tcp.packetsSince (before after : List Tcp.Event) : List Ipv4TransmitParams :=
  (after.drop before.length).filterMap Tcp.Event.packet?

/-- A call of an encoder with its arguments, and the variables of its component. -/
inductive Encoder where
  | sendArpRequest (g : Arp.ArpGlobals) (ip : Ipv4Addr)
  | sendArpReply (g : Arp.ArpGlobals) (macAddr : MacAddr) (ipAddr : Ipv4Addr)
  | sendIcmpv4PingReply (selfNet : NetContext) (dstIpv4Addr : Ipv4Addr) (id seqNum : BitVec 16)
      (data : Memory) (dataLen : BitVec 16)
  | tcpSendInternal (g : Tcp.Globals) (params : Tcp.TcpTransmitParams)
  | udpSendInternal (selfNet : NetContext) (params : Udp.UdpTransmitParams)
  | internalSendIpv4Packet (selfNet : NetContext) (params : Ipv4TransmitParams)
  | ethTx (dstMac srcMac : MacAddr) (ethertype : BitVec 16) (payload : Memory)
      (payloadLen : BitVec 16)

/-- The bytes of the frames that a call hands to `wifi_tx_raw`, if any. -/
def Encoder.frames (e : Encoder) (o : Outcomes) (b : Buffers) : List (List (BitVec 8)) :=
  match e with
  | .sendArpRequest g ip =>
      (Arp.transmittedSince g.log (Arp.sendArpRequest g ip ⟨b.stack, o.eth b⟩).1.log).map
        Eth.Frame.content
  | .sendArpReply g macAddr ipAddr =>
      (Arp.transmittedSince g.log
        (Arp.sendArpReply g macAddr ipAddr ⟨b.stack, o.eth b⟩).1.log).map Eth.Frame.content
  | .sendIcmpv4PingReply selfNet dstIpv4Addr id seqNum data dataLen =>
      (Icmpv4.sendIcmpv4PingReply selfNet dstIpv4Addr id seqNum data dataLen
        ⟨granted o.datagram b.datagram, o.ipv4Accepts⟩).1.toList.flatMap
        fun params => packetFrames selfNet params o b
  | .tcpSendInternal g params =>
      (Tcp.packetsSince g.log (Tcp.tcpSendInternal g params
        ⟨granted o.datagram b.datagram.bytes, o.ipv4Accepts⟩).1.log).flatMap
        fun params => packetFrames g.selfNet params o b
  | .udpSendInternal selfNet params =>
      (Udp.udpSendInternal selfNet params
        ⟨granted o.datagram b.datagram, o.ipv4Accepts⟩).1.toList.flatMap
        fun params => packetFrames selfNet params o b
  | .internalSendIpv4Packet selfNet params => packetFrames selfNet params o b
  | .ethTx dstMac srcMac ethertype payload payloadLen =>
      ((Eth.ethTx dstMac srcMac ethertype payload payloadLen (o.eth b)).1.map
        Eth.Frame.content).toList

end NetStack
