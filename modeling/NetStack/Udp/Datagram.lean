import NetStack.Udp.Types
import NetStack.Utility.Endian

/-!
# UDP datagrams

`udp_send_internal` puts a header before a payload and hands the datagram to IPv4; `udp_input`
reads the header of a datagram and calls the callback of the port that it finds for it.
-/

namespace NetStack.Udp
open NetStack.Lib NetStack.Utility

/-- What the environment decides in one call of `udp_send_internal`: the block `malloc` returns,
    with its initial contents, and whether the IPv4 queue exists and has room. -/
structure SendEnv where
  malloc : Option Block
  ipv4Accepts : Bool

/-- The datagram in a block with the initial contents `heap`. -/
def buildDatagram (heap : Memory) (params : UdpTransmitParams) : Memory :=
  let m := heap.store16 0 (htons params.srcPort)
  let m := m.store16 2 (htons params.dstPort)
  let m := m.store16 4 (htons (udpHeaderSize + params.dataLen))
  -- the checksum is skipped
  let m := m.store16 6 0
  match params.data with
  | some block =>
      if params.dataLen > 0 then m.store 8 (block.bytes.load 0 params.dataLen.toNat) else m
  | none => m

/-- `udp_send_internal`: what it puts into the IPv4 queue, if anything, and its result. -/
def udpSendInternal (selfNet : NetContext) (params : UdpTransmitParams) (env : SendEnv) :
    Option Ipv4TransmitParams × EspErr :=
  match env.malloc with
  | none => (none, .noMem)
  | some block =>
      let ipv4Params : Ipv4TransmitParams :=
        { srcIpv4Addr := selfNet.ip
          dstIpv4Addr := params.dstIpv4Addr
          protocol := udpProtocolNumber
          data := some ⟨block.addr, buildDatagram block.bytes params⟩
          dataLen := udpHeaderSize + params.dataLen }
      if env.ipv4Accepts then (some ipv4Params, .ok) else (none, .fail)

/-- `find_port`. Its argument has 8 bits. -/
def findPort (g : Globals) (portNumber : BitVec 8) : Option PortIdx :=
  firstIdx fun i => (g.ports i).portNumber == portNumber.setWidth 16

/-- How a call of `udp_input` ends. -/
inductive UdpInput where
  | ignored
  /-- The callback of a port is called. -/
  | callback (port : UdpPort) (data : Memory) (dataLen : BitVec 16) (srcAddr : Ipv4Addr)
  /-- A `NULL` pointer is called. -/
  | undefined

/-- `udp_input`. -/
def udpInput (g : Globals) (buffer : Memory) (srcAddr : Ipv4Addr) : UdpInput :=
  let header := UdpHeader.read buffer
  let length := ntohs header.length
  if length < udpHeaderSize then .ignored
  else
    let dstPort := ntohs header.dstPort
    match findPort g (dstPort.setWidth 8) with
    | none => .ignored
    | some i =>
        match (g.ports i).callback with
        | none => .undefined
        | some _ => .callback (g.ports i) (buffer.advance 8) (length - udpHeaderSize) srcAddr

end NetStack.Udp
