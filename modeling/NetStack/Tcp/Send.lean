import NetStack.Tcp.Globals
import NetStack.Utility.Checksum

/-!
# The transmit path

Requests enter `send_queue` through `tcp_enqueue` and `tcp_enqueue_reliable`, the latter
against a slot of the port's semaphore; `tcp_send_internal` turns a request into a datagram,
records it for retransmission when it consumes sequence space, and hands it to IPv4.
-/

namespace NetStack.Tcp
open NetStack.Lib NetStack.Utility

/-- What the environment decides in one call of `tcp_send_internal`: the initial contents of
    the block `malloc` returns (`none` when it fails), and whether the IPv4 queue exists and
    has room. -/
structure SendEnv where
  malloc : Option Memory
  ipv4Accepts : Bool

/-- `tcp_enqueue`. -/
def tcpEnqueue (g : Globals) (params : TcpTransmitParams) (timeout : BitVec 32) :
    Outcome EspErr :=
  if g.sendQueue.length < sendQueueLength then .done (g.pushSend params) .ok
  else if timeout = 0 then .done g .noMem
  else .blocked g .sendQueue

/-- `tcp_enqueue_reliable` after a successful `xSemaphoreTake`: `i` is the port pointer and
    `incarnation` the handle of the semaphore that was taken. -/
def enqueueTaken (g : Globals) (i : PortIdx) (incarnation : Nat) (params : TcpTransmitParams) :
    Globals × EspErr :=
  if (g.ports i).state = .closed then (g.free params.data, .fail)
  else if g.sendQueue.length < sendQueueLength then
    ((g.pushSend params).emit (.queued i incarnation params), .ok)
  else ((giveSlot g i).free params.data, .noMem)

/-- `tcp_enqueue_reliable`. -/
def tcpEnqueueReliable (g : Globals) (params : TcpTransmitParams) (timeout : BitVec 32) :
    Outcome EspErr :=
  match findPort g params.srcPort params.dstPort params.dstIpv4Addr with
  | none => .done (g.free params.data) .invalidArg
  | some i =>
      match (g.ports i).unackedSlots with
      | none => .undefined
      | some sem =>
          match sem.take with
          | none =>
              if timeout = 0 then .done (g.free params.data) .timeout
              else .blocked g (.slots i)
          | some sem' =>
              let taken := g.setPort i { g.ports i with unackedSlots := some sem' }
              let r := enqueueTaken taken i sem.handle params
              .done r.1 r.2

/-- The request `tcp_send` builds for a port. -/
def tcpSendParams (port : TcpPort) (data : Option Block) (len : BitVec 16) :
    TcpTransmitParams where
  dstIpv4Addr := port.otherIpv4Addr
  dstPort := port.otherPortNum
  srcPort := port.selfPortNum
  control := ACK + PSH
  data := data
  dataLen := len

/-- `tcp_send`. -/
def tcpSend (g : Globals) (srcPortNum dstPortNum : BitVec 16) (dstIpv4Addr : Ipv4Addr)
    (data : Option Block) (len : BitVec 16) (timeout : BitVec 32) : Outcome EspErr :=
  match findPort g srcPortNum dstPortNum dstIpv4Addr with
  | none => .done (g.free data) .fail
  | some i => tcpEnqueueReliable g (tcpSendParams (g.ports i) data len) timeout

/-- `datagram_length`, in 16 bits. -/
def datagramLength (params : TcpTransmitParams) : BitVec 16 := headerSize + params.dataLen

/-- `seq_increment`, in 16 bits. -/
def seqIncrement (params : TcpTransmitParams) : BitVec 16 :=
  params.dataLen + if flagSyn params.control || flagFin params.control then 1 else 0

/-- The branch of `tcp_send_internal` that consumes sequence space. -/
def consumesSequence (params : TcpTransmitParams) : Bool :=
  seqIncrement params != 0 && !params.isRetransmission

/-- The block `tcp_send_internal` hands on, from the initial contents `heap`: the pseudo
    header at 0, the TCP header at 12 written field by field through `struct tcp_header_t`,
    the payload at 32, the checksum over all of it, and the whole datagram moved to 0. -/
def buildDatagram (heap : Memory) (selfNet : NetContext) (params : TcpTransmitParams)
    (port : TcpPort) (seqNum : BitVec 32) : Memory :=
  let length := datagramLength params
  let m := heap.store 0 selfNet.ip.bytes
  let m := m.store 4 params.dstIpv4Addr.bytes
  let m := m.store 8 [0]
  let m := m.store 9 [tcpProtocolNumber]
  let m := m.store16 10 (htons length)
  let m := m.store16 12 (htons params.srcPort)
  let m := m.store16 14 (htons params.dstPort)
  let m := m.store32 20 (htonl port.ackNum)
  -- the bit-fields `dOffset` and `reserved` share a byte
  let m := m.store 24 [m 24 &&& 0x0F ||| 5 <<< 4]
  let m := m.store 24 [m 24 &&& 0xF0]
  let m := m.store 25 [params.control]
  let m := m.store16 26 (htons port.selfWindow)
  let m := m.store16 28 0
  let m := m.store16 30 0
  let m :=
    match params.data with
    | some block => if params.dataLen > 0 then m.store 32 (block.bytes.load 0 params.dataLen.toNat) else m
    | none => m
  let m := m.store32 16 (htonl seqNum)
  let m := m.store16 28 (htons (netChecksum m (length + psuedoHeaderSize)))
  m.move 0 12 length.toNat

/-- `send_ipv4_packet`: the environment says whether the queue exists and has room. -/
def sendIpv4Packet (g : Globals) (t : Transmission) : Globals × EspErr :=
  if t.accepted then (g.emit (.transmit t), .ok)
  else ((g.emit (.transmit t)).free t.ipv4.data, .fail)

/-- The last part of `tcp_send_internal`: the datagram with the sequence number `seqNum`, in
    the block at `addr`, goes to IPv4. -/
def sendDatagram (g : Globals) (i : PortIdx) (params : TcpTransmitParams)
    (portSeqNum seqNum : BitVec 32) (addr : Nat) (heap : Memory) (ipv4Accepts : Bool) :
    Globals × EspErr :=
  sendIpv4Packet g
    { slot := i
      incarnation := (g.ports i).incarnation
      params := params
      seqNum := seqNum
      portSeqNum := portSeqNum
      ipv4 :=
        { srcIpv4Addr := g.selfNet.ip
          dstIpv4Addr := params.dstIpv4Addr
          protocol := tcpProtocolNumber
          data := some ⟨addr, buildDatagram heap g.selfNet params (g.ports i) seqNum⟩
          dataLen := datagramLength params }
      accepted := ipv4Accepts }

/-- The port after a request that consumes sequence space has been recorded in entry `j`. -/
def recordUnacked (port : TcpPort) (j : UnackedIdx) (params : TcpTransmitParams)
    (now : BitVec 32) : TcpPort :=
  { port with
    unacked := Function.update port.unacked j
      { inUse := true
        seqNum := port.seqNum
        control := params.control
        data := params.data
        dataLen := params.dataLen
        sentAt := now }
    seqNum := port.seqNum + (seqIncrement params).setWidth 32 }

/-- `tcp_send_internal` after the allocation of the datagram's block at `addr`. -/
def sendAllocated (g : Globals) (params : TcpTransmitParams) (addr : Nat) (heap : Memory)
    (ipv4Accepts : Bool) : Globals × EspErr :=
  match findPort g params.srcPort params.dstPort params.dstIpv4Addr with
  | none => ((g.free params.data).warn .sendPortNotFound, .fail)
  | some i =>
      let port := g.ports i
      if consumesSequence params then
        match findEmptyUnacked port with
        | none => ((g.free params.data).warn .sendUnackedFull, .noMem)
        | some j =>
            sendDatagram (g.setPort i (recordUnacked port j params g.tick)) i params
              port.seqNum port.seqNum addr heap ipv4Accepts
      else
        -- basically only happens when sending acks
        sendDatagram g i params port.seqNum params.seqNum addr heap ipv4Accepts

/-- `tcp_send_internal`. -/
def tcpSendInternal (g : Globals) (params : TcpTransmitParams) (env : SendEnv) :
    Globals × EspErr :=
  match env.malloc with
  | none => ((g.free params.data).warn .sendNoMemory, .noMem)
  | some heap =>
      let allocated := { g with nextAddr := g.nextAddr + 1 }.emit (.malloc g.nextAddr)
      sendAllocated allocated params g.nextAddr heap env.ipv4Accepts

end NetStack.Tcp
