import NetStack.Tcp.Send

/-!
# The receive path

`input_tcp_internal` runs in `tcp_task` on one segment: it resolves the port, filters what
is not acceptable, releases acknowledged entries, acknowledges what it takes, and then runs
the case of the port's state. A callback is always the last thing a case does, so that what
a callback calls is a step of its own.
-/

namespace NetStack.Tcp
open NetStack.Lib NetStack.Utility

/-- The fields of `struct tcp_header_t` that the receive path reads, in host byte order. -/
structure TcpHeader where
  srcPort : BitVec 16
  dstPort : BitVec 16
  seqNum : BitVec 32
  ackNum : BitVec 32
  dOffset : BitVec 8
  control : BitVec 8
  window : BitVec 16

/-- The overlay of `struct tcp_header_t` on a buffer. -/
def TcpHeader.read (buffer : Memory) : TcpHeader where
  srcPort := ntohs (buffer.load16 0)
  dstPort := ntohs (buffer.load16 2)
  seqNum := ntohl (buffer.load32 4)
  ackNum := ntohl (buffer.load32 8)
  dOffset := buffer 12 >>> 4
  control := buffer 13
  window := ntohs (buffer.load16 14)

/-- `header_length`, in 16 bits. -/
def TcpHeader.headerLength (header : TcpHeader) : BitVec 16 := header.dOffset.setWidth 16 * 4

/-- A received segment: the three arguments of `input_tcp_internal`. -/
abbrev Segment := TcpInputEvent

namespace Segment

/-- The header of a segment. -/
def header (seg : Segment) : TcpHeader := TcpHeader.read seg.buffer

/-- `flags.FIN`. -/
def fin (seg : Segment) : Bool := flagFin seg.header.control

/-- `flags.SYN`. -/
def syn (seg : Segment) : Bool := flagSyn seg.header.control

/-- `flags.RST`. -/
def rst (seg : Segment) : Bool := flagRst seg.header.control

/-- `flags.ACK`. -/
def ack (seg : Segment) : Bool := flagAck seg.header.control

/-- `data_length`: what follows the header, in 16 bits. -/
def dataLength (seg : Segment) : BitVec 16 := seg.length - seg.header.headerLength

/-- `sequence_increment`, in 16 bits. -/
def sequenceIncrement (seg : Segment) : BitVec 16 :=
  seg.dataLength + if seg.syn || seg.fin then 1 else 0

end Segment

/-- The port lookup of `input_tcp_internal`: a SYN that no port has the key of goes to a
    listening port. -/
def findSegmentPort (g : Globals) (seg : Segment) : Option PortIdx :=
  match findPort g seg.header.dstPort seg.header.srcPort seg.srcIpv4Addr with
  | some i => some i
  | none => if seg.syn then findListeningPort g seg.header.dstPort else none

/-- Release one acknowledged entry: the body of the ACK loop after its two tests. -/
def releaseUnacked (g : Globals) (i : PortIdx) (j : UnackedIdx) : Globals :=
  let entry := (g.ports i).unacked j
  let cleared := g.setUnacked i j { entry with inUse := false, data := none }
  ((giveSlot cleared i).emit (.acked i (g.ports i).incarnation entry)).free entry.data

/-- The body of the ACK loop. -/
def ackUnacked (i : PortIdx) (receivedAckNum : BitVec 32) (j : UnackedIdx) (g : Globals) :
    Globals :=
  let entry := (g.ports i).unacked j
  if entry.inUse = true ∧ entry.seqNum ≤ receivedAckNum then releaseUnacked g i j else g

/-- The ACK processing of `input_tcp_internal`. -/
def processAck (g : Globals) (i : PortIdx) (receivedAckNum : BitVec 32) : Globals :=
  if receivedAckNum ≤ (g.ports i).seqNum then forIdx (ackUnacked i receivedAckNum) g else g

/-- The reply that the receive path builds for a port: no data, the port's current sequence
    number, addressed to the source of the segment. -/
def replyParams (port : TcpPort) (dst : Ipv4Addr) (control : BitVec 8) : TcpTransmitParams where
  dstIpv4Addr := dst
  srcPort := port.selfPortNum
  dstPort := port.otherPortNum
  seqNum := port.seqNum
  control := control

/-- Advance `ack_num` over the segment and queue an ACK, except in the states where one has
    already been sent. -/
def acknowledgeData (g : Globals) (i : PortIdx) (seg : Segment) : Outcome Unit :=
  if seg.sequenceIncrement > 0 ∧ (g.ports i).state ≠ .lastAck ∧ (g.ports i).state ≠ .listen then
    let advanced := g.setPort i
      { g.ports i with ackNum := seg.header.seqNum + seg.sequenceIncrement.setWidth 32 }
    (tcpEnqueue advanced (replyParams (advanced.ports i) seg.srcIpv4Addr ACK) portMaxDelay).bind
      fun g _ => .done g ()
  else .done g ()

/-- `tcp_reset_port`: one turn of the loop that frees the buffered payloads. -/
def freeUnackedData (i : PortIdx) (j : UnackedIdx) (g : Globals) : Globals :=
  let entry := (g.ports i).unacked j
  match entry.data with
  | some block =>
      if entry.inUse = true then
        (g.free (some block)).setUnacked i j { entry with data := none }
      else g
  | none => g

/-- `tcp_reset_port`. -/
def tcpResetPort (g : Globals) (i : PortIdx) : Globals :=
  let incarnation := (g.ports i).incarnation
  let closed := g.setPort i { g.ports i with state := .closed, selfPortNum := 0 }
  let freed := forIdx (freeUnackedData i) closed
  -- release all tasks waiting before deleting the semaphore
  let waitingTasks := maxUnacked - (freed.ports i).slots
  let given := (fun g => giveSlot g i)^[waitingTasks] freed
  (given.setPort i { given.ports i with unackedSlots := none }).emit (.reset i incarnation)

/-- `port->on_connect`, if there is one. -/
def callOnConnect (g : Globals) (i : PortIdx) : Globals :=
  match (g.ports i).onConnect with
  | some _ => g.emit (.onConnect i (g.ports i).incarnation)
  | none => g

/-- `port->on_disconnect`, called without a test for `NULL`. -/
def callOnDisconnect (g : Globals) (i : PortIdx) (incarnation : Option Nat) : Outcome Unit :=
  match (g.ports i).onDisconnect with
  | some _ => .done (g.emit (.onDisconnect i incarnation)) ()
  | none => .undefined

/-- `case LISTEN`. -/
def inputListen (g : Globals) (i : PortIdx) (seg : Segment) : Outcome Unit :=
  if seg.syn = false then .done (g.warn .listenNoSyn) ()
  else
    let taken := g.setPort i
      { g.ports i with
        state := .synReceived
        otherIpv4Addr := seg.srcIpv4Addr
        otherPortNum := seg.header.srcPort
        ackNum := seg.header.seqNum + 1 }
    (tcpEnqueueReliable taken (replyParams (taken.ports i) seg.srcIpv4Addr (SYN + ACK))
      portMaxDelay).bind fun g _ => .done g ()

/-- `case SYN_SENT`. -/
def inputSynSent (g : Globals) (i : PortIdx) (seg : Segment) : Globals :=
  if seg.syn = false then g.warn .synSentNoSyn
  else if seg.ack = false then g.warn .synSentNoAck
  else callOnConnect (g.setState i .established) i

/-- `case SYN_RECEIVED`. -/
def inputSynReceived (g : Globals) (i : PortIdx) (seg : Segment) : Globals :=
  if seg.ack = false then g.warn .synReceivedNoAck
  else if seg.header.ackNum ≠ (g.ports i).seqNum then g.warn .synReceivedUnexpectedAck
  else callOnConnect (g.setState i .established) i

/-- Deliver the payload of a segment to the application. -/
def deliverData (g : Globals) (i : PortIdx) (seg : Segment) : Globals :=
  if seg.dataLength > 0 then
    match (g.ports i).onReceive with
    | some _ =>
        g.emit (.onReceive i (g.ports i).incarnation seg.buffer seg.header.headerLength
          seg.dataLength)
    | none => g
  else g

/-- `case ESTABLISHED`. -/
def inputEstablished (g : Globals) (i : PortIdx) (seg : Segment) : Outcome Unit :=
  if seg.fin then
    (tcpEnqueueReliable g (replyParams (g.ports i) seg.srcIpv4Addr (FIN + ACK))
      portMaxDelay).bind fun g _ => .done (deliverData (g.setState i .lastAck) i seg) ()
  else .done (deliverData g i seg) ()

/-- `case LAST_ACK`. -/
def inputLastAck (g : Globals) (i : PortIdx) (seg : Segment) : Outcome Unit :=
  if seg.ack = false then .done (g.warn .lastAckNoAck) ()
  else if seg.header.ackNum ≠ (g.ports i).seqNum then
    .done (g.warn .lastAckNotAcknowledged) ()
  else callOnDisconnect (tcpResetPort g i) i (g.ports i).incarnation

/-- The move to `TIME_WAIT`, made from two states. -/
def enterTimeWait (g : Globals) (i : PortIdx) : Outcome Unit :=
  let waiting := g.setPort i { g.ports i with state := .timeWait, enteredTimeWaitAt := g.tick }
  callOnDisconnect waiting i (g.ports i).incarnation

/-- `case FIN_WAIT_1`. -/
def inputFinWait1 (g : Globals) (i : PortIdx) (seg : Segment) : Outcome Unit :=
  if seg.fin then enterTimeWait g i
  else if seg.ack = false then .done g ()
  else .done (g.setState i .finWait2) ()

/-- `case FIN_WAIT_2`. -/
def inputFinWait2 (g : Globals) (i : PortIdx) (seg : Segment) : Outcome Unit :=
  if seg.fin = false then .done g () else enterTimeWait g i

/-- The switch on the state of the port. -/
def inputState (g : Globals) (i : PortIdx) (seg : Segment) : Outcome Unit :=
  match (g.ports i).state with
  | .listen => inputListen g i seg
  | .synSent => .done (inputSynSent g i seg) ()
  | .synReceived => .done (inputSynReceived g i seg) ()
  | .established => inputEstablished g i seg
  | .lastAck => inputLastAck g i seg
  | .finWait1 => inputFinWait1 g i seg
  | .finWait2 => inputFinWait2 g i seg
  | .closed | .closeWait | .timeWait => .done g ()

/-- What `input_tcp_internal` does with a segment that has passed its checks: release what
    it acknowledges, acknowledge it, remember its window, run the state's case. -/
def acceptSegment (g : Globals) (i : PortIdx) (seg : Segment) : Outcome Unit :=
  let released := if seg.ack then processAck g i seg.header.ackNum else g
  (acknowledgeData released i seg).bind fun g _ =>
    inputState (g.setPort i { g.ports i with otherWindow := seg.header.window }) i seg

/-- Only sequential segments are accepted once a port is synchronized. -/
def outOfSequence (port : TcpPort) (seg : Segment) : Bool :=
  port.state != .listen && port.state != .synSent && seg.header.seqNum != port.ackNum

/-- What the checks at the start of `input_tcp_internal` decide. -/
inductive Verdict where
  | discard (why : Warning)
  | reset (i : PortIdx)
  | accept (i : PortIdx)
  deriving DecidableEq

/-- The checks of `input_tcp_internal`, in their order. -/
def checkSegment (g : Globals) (seg : Segment) : Verdict :=
  if seg.header.headerLength < headerSize then .discard .invalidHeaderLength
  else
    match findSegmentPort g seg with
    | none => .discard .noPortFound
    | some i =>
        if (g.ports i).state = .closed then .discard .closedPort
        else if seg.rst then .reset i
        else if outOfSequence (g.ports i) seg then .discard .unexpectedSequence
        -- every packet after the handshake should have its ACK flag set
        else if seg.ack = false ∧ seg.syn = false then .discard .malformedNoAck
        else .accept i

/-- `input_tcp_internal`. -/
def inputTcpInternal (g : Globals) (seg : Segment) : Outcome Unit :=
  match checkSegment g seg with
  | .discard why => .done (g.warn why) ()
  | .reset i => .done (tcpResetPort (g.warn .forciblyClosed) i) ()
  | .accept i => acceptSegment g i seg

end NetStack.Tcp
