import NetStack.Eth.Transmit
import NetStack.Ipv4.Types
import NetStack.Lib.Rtos

/-!
# The data types of the ARP component

`protocols/arp.h` and the file scope of `protocols/arp.c`, as far as the receive path uses
them.
-/

namespace NetStack.Arp
open NetStack.Lib NetStack.Eth

/-- `ARP_ETHERTYPE`. -/
def arpEthertype : BitVec 16 := 0x0806

/-- `ARP_OP_REQUEST`. -/
def arpOpRequest : BitVec 16 := 1

/-- `ARP_OP_REPLY`. -/
def arpOpReply : BitVec 16 := 2

/-- The capacity of `arp_input_queue`. -/
def arpInputQueueLength : Nat := 4

/-- The capacity of `arp_queue_set`. -/
def arpQueueSetLength : Nat := 8

/-- `struct arp_data_t`, its 16-bit fields as they stand in memory. -/
structure ArpData where
  hardwareType : BitVec 16
  protocolType : BitVec 16
  hardwareLength : BitVec 8
  protocolLength : BitVec 8
  operation : BitVec 16
  srcMac : MacAddr
  srcIp : Ipv4Addr
  dstMac : MacAddr
  dstIp : Ipv4Addr

/-- The overlay of `struct arp_data_t` on a buffer. -/
def ArpData.read (buffer : Memory) : ArpData where
  hardwareType := buffer.load16 0
  protocolType := buffer.load16 2
  hardwareLength := buffer 4
  protocolLength := buffer 5
  operation := buffer.load16 6
  srcMac := .read buffer 8
  srcIp := .read buffer 14
  dstMac := .read buffer 18
  dstIp := .read buffer 24

/-- `sizeof(struct arp_data_t)`. -/
def arpDataSize : Nat := 28

/-- `struct arp_entry_t`. -/
structure ArpEntry where
  ip : Ipv4Addr
  mac : MacAddr
  deriving DecidableEq, Repr

/-- The members of `arp_queue_set`. -/
inductive ArpQueueHandle where
  | requestQueue
  | inputQueue
  deriving DecidableEq, Repr

/-- What the component does that others can see, in the order in which it happens. -/
inductive ArpEvent where
  /-- `xQueueSend` of a received entry to `arp_input_queue`, and whether it had room. -/
  | queueEntry (entry : ArpEntry) (accepted : Bool)
  /-- A call of `send_arp_reply` with its result. -/
  | sendReply (mac : MacAddr) (ip : Ipv4Addr) (result : EspErr)
  /-- A frame is handed to `wifi_tx_raw`. -/
  | wifiTx (frame : Frame)

/-- The variables of `arp.c` that the receive path uses, and the history of its effects. -/
structure ArpGlobals where
  selfIpAddr : Ipv4Addr
  selfMacAddr : MacAddr
  arpInputQueue : List ArpEntry := []
  arpQueueSet : List ArpQueueHandle := []
  log : List ArpEvent := []

end NetStack.Arp
