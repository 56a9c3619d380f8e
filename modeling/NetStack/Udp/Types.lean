import NetStack.Ipv4.Types
import NetStack.Lib.FinArray
import NetStack.Lib.Rtos

/-!
# The data types of the UDP component

`protocols/udp.h` and the file scope of `protocols/udp.c`.
-/

namespace NetStack.Udp
open NetStack.Lib

/-- `UDP_PROTOCOL_NUMBER`. -/
def udpProtocolNumber : BitVec 8 := 17

/-- The capacity of `port_queue`. -/
def portQueueLength : Nat := 4

/-- The capacity of `send_queue`. -/
def sendQueueLength : Nat := 8

/-- The capacity of `udp_task_queue_set`. -/
def queueSetLength : Nat := 8

/-- A function pointer; `NULL` is `none` of an `Option FnPtr`. -/
abbrev FnPtr := Nat

/-- An index into `ports`, whose length is `max_ports`. -/
abbrev PortIdx := Fin 8

/-- `struct udp_port_t`. -/
structure UdpPort where
  portNumber : BitVec 16 := 0
  callback : Option FnPtr := none
  deriving DecidableEq, Repr

/-- `struct udp_transmit_params_t`. -/
structure UdpTransmitParams where
  srcPort : BitVec 16
  dstPort : BitVec 16
  dstIpv4Addr : Ipv4Addr
  data : Option Block
  dataLen : BitVec 16

/-- `struct udp_header_t`, as it stands in memory. -/
structure UdpHeader where
  srcPort : BitVec 16
  dstPort : BitVec 16
  length : BitVec 16
  checksum : BitVec 16

/-- The overlay of `struct udp_header_t` on a buffer. -/
def UdpHeader.read (buffer : Memory) : UdpHeader where
  srcPort := buffer.load16 0
  dstPort := buffer.load16 2
  length := buffer.load16 4
  checksum := buffer.load16 6

/-- `sizeof(struct udp_header_t)`. -/
def udpHeaderSize : BitVec 16 := 8

/-- The members of `udp_task_queue_set`. -/
inductive QueueHandle where
  | portQueue
  | sendQueue
  deriving DecidableEq, Repr

/-- The variables of `udp.c`. -/
structure Globals where
  selfNet : NetContext
  ports : PortIdx → UdpPort := fun _ => {}
  portQueue : List UdpPort := []
  sendQueue : List UdpTransmitParams := []
  queueSet : List QueueHandle := []

end NetStack.Udp
