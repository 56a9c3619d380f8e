import NetStack.Arp.Input

/-!
# Frames on the way in

`wifi_rxcb` of `wifi_manager.c`, the receive callback of the driver: it strips the Ethernet
header off a frame, hands the rest to the protocol that the header names, and frees the frame.
-/

namespace NetStack.WifiManager
open NetStack.Lib NetStack.Utility NetStack.Arp

/-- The calls `wifi_rxcb` makes, with their arguments. -/
inductive RxCall where
  | arpInput (buffer : Memory) (len : BitVec 16)
  | ipv4Input (buffer : Memory) (len : BitVec 16)
  | freeRxBuffer (eb : Nat)
  | free

/-- The counters of `wifi_manager.c`. -/
structure RxCounters where
  wifiRxCount : BitVec 32 := 0
  wifiBufEbNullCount : BitVec 32 := 0
  wifiBufEbNonNullCount : BitVec 32 := 0

/-- `struct eth_hdr_t`: the field that `wifi_rxcb` uses, in host byte order. -/
def ethertype (frame : Memory) : BitVec 16 := ntohs (frame.load16 12)

/-- `buffer_data`: what follows the Ethernet header. -/
def bufferData (frame : Memory) : Memory := frame.advance 14

/-- `buffer_data_len`, in 16 bits. -/
def bufferDataLen (len : BitVec 16) : BitVec 16 := len - 14

/-- The switch of `wifi_rxcb` on the ethertype. -/
def dispatch (frame : Memory) (len : BitVec 16) : Option RxCall :=
  if ethertype frame = arpEthertype then some (.arpInput (bufferData frame) (bufferDataLen len))
  else if ethertype frame = ipv4Ethertype then
    some (.ipv4Input (bufferData frame) (bufferDataLen len))
  else none

/-- `wifi_rxcb`; `eb` is the driver's handle of the buffer, if it has one. -/
def wifiRxcb (counters : RxCounters) (frame : Memory) (len : BitVec 16) (eb : Option Nat) :
    RxCounters × List RxCall :=
  let counted := { counters with wifiRxCount := counters.wifiRxCount + 1 }
  match eb with
  | none =>
      ({ counted with wifiBufEbNullCount := counted.wifiBufEbNullCount + 1 },
        (dispatch frame len).toList ++ [.free])
  | some eb =>
      ({ counted with wifiBufEbNonNullCount := counted.wifiBufEbNonNullCount + 1 },
        (dispatch frame len).toList ++ [.freeRxBuffer eb])

end NetStack.WifiManager
