import NetStack.Ipv4.Types
import NetStack.Lib.FinArray
import NetStack.Lib.Rtos

/-!
# The data types of the TCP component

`protocols/tcp.h` and the private types of `protocols/tcp.c`. A port holds everything the
stack knows about one connection; a transmit request names its connection by key only.
-/

namespace NetStack.Tcp
open NetStack.Lib

/-- `TCP_PROTOCOL_NUMBER`. -/
def tcpProtocolNumber : BitVec 8 := 6

/-- `MAX_UNACKED`. -/
abbrev maxUnacked : Nat := 8

/-- `max_ports`, the length of `ports`. -/
abbrev maxPorts : Nat := 8

/-- The capacity of `send_queue`. -/
def sendQueueLength : Nat := 8

/-- The capacity of `input_queue`. -/
def inputQueueLength : Nat := 8

/-- The capacity of `port_cmd_queue`. -/
def portCmdQueueLength : Nat := 4

/-- The capacity of `tcp_task_queue_set`. -/
def queueSetLength : Nat := 20

/-- `TIME_WAIT_DURATION`, in ticks. -/
def timeWaitDuration : BitVec 32 := 1000

/-- `RETRANSMIT_TIMEOUT`, in ticks. -/
def retransmitTimeout : BitVec 32 := 100

/-- `portMAX_DELAY`: wait for ever. -/
def portMaxDelay : BitVec 32 := 0xFFFFFFFF

/-- `sizeof(struct tcp_header_t)`. -/
def headerSize : BitVec 16 := 20

/-- `sizeof(struct ipv4_psuedo_header_t)`. -/
def psuedoHeaderSize : BitVec 16 := 12

/-- `FIN`. -/
def FIN : BitVec 8 := 0b1

/-- `SYN`. -/
def SYN : BitVec 8 := 0b10

/-- `PSH`. -/
def PSH : BitVec 8 := 0b1000

/-- `ACK`. -/
def ACK : BitVec 8 := 0b10000

/-- `flags.FIN` of a control byte (`struct tcp_flags_t`). -/
def flagFin (control : BitVec 8) : Bool := control.getLsbD 0

/-- `flags.SYN` of a control byte. -/
def flagSyn (control : BitVec 8) : Bool := control.getLsbD 1

/-- `flags.RST` of a control byte. -/
def flagRst (control : BitVec 8) : Bool := control.getLsbD 2

/-- `flags.ACK` of a control byte. -/
def flagAck (control : BitVec 8) : Bool := control.getLsbD 4

/-- `IPV4_ALL_ZEROES`. -/
def ipv4AllZeroes : Ipv4Addr := ⟨0, 0, 0, 0⟩

/-- `enum tcp_state_t`. -/
inductive TcpState where
  | closed
  | listen
  | synSent
  | synReceived
  | established
  | finWait1
  | closeWait
  | finWait2
  | lastAck
  | timeWait
  deriving DecidableEq, Repr

/-- A function pointer; `NULL` is `none` of an `Option FnPtr`. -/
abbrev FnPtr := Nat

/-- An index into `ports`, what a non-`NULL` `struct tcp_port_t*` points to. -/
abbrev PortIdx := Fin maxPorts

scoped instance neZero_portIdx : NeZero maxPorts := ⟨by decide⟩

/-- An index into the `unacked` array of a port. -/
abbrev UnackedIdx := Fin maxUnacked

/-- `struct tcp_transmit_params_t`; what a designated initializer leaves out is zero. -/
structure TcpTransmitParams where
  dstIpv4Addr : Ipv4Addr
  srcPort : BitVec 16
  dstPort : BitVec 16
  seqNum : BitVec 32 := 0
  control : BitVec 8
  isRetransmission : Bool := false
  data : Option Block := none
  dataLen : BitVec 16 := 0

/-- `struct tcp_unacked_t`; all zero by default. -/
structure TcpUnacked where
  seqNum : BitVec 32 := 0
  inUse : Bool := false
  data : Option Block := none
  dataLen : BitVec 16 := 0
  sentAt : BitVec 32 := 0
  control : BitVec 8 := 0

/-- `struct tcp_port_t`; all zero by default, as the static array is at boot. The slot
    semaphore is `none` when the handle is `NULL` or its semaphore has been deleted. -/
structure TcpPort where
  selfPortNum : BitVec 16 := 0
  otherPortNum : BitVec 16 := 0
  otherIpv4Addr : Ipv4Addr := ipv4AllZeroes
  state : TcpState := .closed
  enteredTimeWaitAt : BitVec 32 := 0
  ackNum : BitVec 32 := 0
  seqNum : BitVec 32 := 0
  selfWindow : BitVec 16 := 0
  otherWindow : BitVec 16 := 0
  unacked : UnackedIdx → TcpUnacked := fun _ => {}
  unackedSlots : Option (CountingSemaphore maxUnacked) := none
  onReceive : Option FnPtr := none
  onConnect : Option FnPtr := none
  onDisconnect : Option FnPtr := none

/-- The incarnation of a port: the handle of the slot semaphore that was created for it.
    A slot that holds no live semaphore has none. -/
def TcpPort.incarnation (p : TcpPort) : Option Nat := p.unackedSlots.map (·.handle)

/-- `uxSemaphoreGetCount(port->unacked_slots)`, zero when there is no semaphore. -/
def TcpPort.slots (p : TcpPort) : Nat := (p.unackedSlots.map (·.count)).getD 0

/-- `struct tcp_input_event_t`. -/
structure TcpInputEvent where
  buffer : Memory
  length : BitVec 16
  srcIpv4Addr : Ipv4Addr

/-- `struct tcp_port_cmd_t`, one constructor for each value of its `type`. -/
inductive TcpPortCmd where
  | createAndConnect (selfPortNum otherPortNum : BitVec 16) (otherIpv4Addr : Ipv4Addr)
      (onReceive onConnect onDisconnect : Option FnPtr)
  | createAndListen (selfPortNum : BitVec 16) (onReceive onConnect onDisconnect : Option FnPtr)
  | close (selfPortNum otherPortNum : BitVec 16) (otherIpv4Addr : Ipv4Addr)

/-- The members of `tcp_task_queue_set`. -/
inductive QueueHandle where
  | sendQueue
  | inputQueue
  | portCmdQueue
  deriving DecidableEq, Repr

/-- An application task inside `xSemaphoreTake` of `tcp_enqueue_reliable`: its request, the
    port pointer and the semaphore it holds across the wait, how long it is willing to wait,
    and whether a give has made it ready. -/
structure Sender where
  params : TcpTransmitParams
  port : PortIdx
  handle : Nat
  timeout : BitVec 32
  ready : Bool

/-- What a task can wait for without end. -/
inductive Resource where
  /-- A place in `send_queue`. -/
  | sendQueue
  /-- The slot semaphore of a port. -/
  | slots (port : PortIdx)
  deriving DecidableEq, Repr

/-- The `ESP_LOGW` lines, one for each place that logs. -/
inductive Warning where
  | sendNoMemory
  | sendPortNotFound
  | sendUnackedFull
  | sendFailed
  | invalidHeaderLength
  | noPortFound
  | closedPort
  | forciblyClosed
  | unexpectedSequence
  | malformedNoAck
  | listenNoSyn
  | synSentNoSyn
  | synSentNoAck
  | synReceivedNoAck
  | synReceivedUnexpectedAck
  | lastAckNoAck
  | lastAckNotAcknowledged
  deriving DecidableEq, Repr

/-- One call of `send_ipv4_packet` by `tcp_send_internal`: the port it resolved, the request,
    the sequence number in the header, `port->seq_num` before the call, the datagram and
    whether the IPv4 queue took it. -/
structure Transmission where
  slot : PortIdx
  incarnation : Option Nat
  params : TcpTransmitParams
  seqNum : BitVec 32
  portSeqNum : BitVec 32
  ipv4 : Ipv4TransmitParams
  accepted : Bool

/-- What the component does that others can see, in the order in which it happens. -/
inductive Event where
  | warn (warning : Warning)
  | malloc (addr : Nat)
  | free (addr : Nat)
  /-- `tcp_enqueue_reliable` put a request into `send_queue` against a slot of the semaphore
      `incarnation`, taken through the port pointer `slot`. -/
  | queued (slot : PortIdx) (incarnation : Nat) (params : TcpTransmitParams)
  | transmit (transmission : Transmission)
  /-- ACK processing released an entry. -/
  | acked (slot : PortIdx) (incarnation : Option Nat) (entry : TcpUnacked)
  | reset (slot : PortIdx) (incarnation : Option Nat)
  | onReceive (slot : PortIdx) (incarnation : Option Nat) (buffer : Memory)
      (offset dataLen : BitVec 16)
  | onConnect (slot : PortIdx) (incarnation : Option Nat)
  | onDisconnect (slot : PortIdx) (incarnation : Option Nat)

end NetStack.Tcp
