import NetStack.Eth.Transmit
import NetStack.Ipv4.Types
import NetStack.Utility.Checksum

/-!
# IPv4 packets on the way out

The transmit path of `protocols/ipv4.c`. `ipv4_task` runs `internal_send_ipv4_packet` on each
item of its queue, which owns the payload: the payload is copied behind a header without
options and freed, then the packet goes to the link layer.
-/

namespace NetStack.Ipv4
open NetStack.Lib NetStack.Utility

/-- `HEADER_LENGTH`. -/
def headerLength : BitVec 16 := 20

/-- What the environment decides in one call of `internal_send_ipv4_packet`: the initial contents
    of the block `malloc` returns (`none` when it fails), what `arp_get_mac_addr` returns, and
    the choices of `eth_tx`. -/
structure SendEnv where
  malloc : Option Memory
  arpGetMacAddr : Except EspErr MacAddr
  eth : Eth.EthEnv

/-- The packet in a block with the initial contents `heap`. -/
def buildPacket (heap : Memory) (params : Ipv4TransmitParams) : Memory :=
  -- version and header length
  let m := heap.store 0 [4 <<< 4 ||| (headerLength.setWidth 8) / 4]
  let m := m.store 1 [0]
  let m := m.store16 2 (htons (headerLength + params.dataLen))
  let m := m.store 4 [0, 0]
  -- fragment offset and flags
  let m := m.store16 6 (htons (0b010 <<< 13))
  let m := m.store 8 [128]
  let m := m.store 9 [params.protocol]
  let m := m.store 10 [0, 0]
  let m := m.store 12 params.srcIpv4Addr.bytes
  let m := m.store 16 params.dstIpv4Addr.bytes
  let m := m.store16 10 (htons (netChecksum m headerLength))
  match params.data with
  | some block => m.store 20 (block.bytes.load 0 params.dataLen.toNat)
  | none => m

/-- What `internal_send_ipv4_packet` has done when it returns: the frame that went to the driver,
    if any, the payload it has freed, and its result. -/
structure Sent where
  frame : Option Eth.Frame
  freed : Option Block
  result : EspErr

/-- `internal_send_ipv4_packet`. The block of the packet lives for the time of the call only. -/
def internalSendIpv4Packet (selfNet : NetContext) (params : Ipv4TransmitParams) (env : SendEnv) :
    Sent :=
  match env.malloc with
  | none => ⟨none, params.data, .noMem⟩
  | some heap =>
      let packet := buildPacket heap params
      match env.arpGetMacAddr with
      | .error result => ⟨none, params.data, result⟩
      | .ok dstMacAddr =>
          let r := Eth.ethTx dstMacAddr selfNet.mac (htons ipv4Ethertype) packet
            (headerLength + params.dataLen) env.eth
          ⟨r.1, params.data, r.2⟩

/-- Whatever becomes of the packet, the payload has been freed. -/
@[simp] theorem internalSendIpv4Packet_freed (selfNet : NetContext) (params : Ipv4TransmitParams)
    (env : SendEnv) : (internalSendIpv4Packet selfNet params env).freed = params.data := by
  unfold internalSendIpv4Packet
  split
  · rfl
  · dsimp only
    split <;> rfl

end NetStack.Ipv4
