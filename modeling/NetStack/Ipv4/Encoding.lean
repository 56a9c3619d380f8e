import NetStack.Eth.Encoding
import NetStack.Ipv4.Transmit
import NetStack.Utility.Proofs.Checksum

/-!
# What is in a packet

The bytes that `internal_send_ipv4_packet` hands to the link layer: the header, with a checksum
that verifies, and the payload behind it.
-/

namespace NetStack

/-- The payload of a packet that is to be sent; `NULL` stands for no bytes. -/
def Ipv4TransmitParams.payload (params : Ipv4TransmitParams) : List (BitVec 8) :=
  match params.data with
  | some block => block.bytes.load 0 params.dataLen.toNat
  | none => []

end NetStack

namespace NetStack.Ipv4
open NetStack.Lib NetStack.Utility

/-- The fields of the header before the checksum. -/
def fieldsBefore (params : Ipv4TransmitParams) : List (BitVec 8) :=
  [0x45#8, 0] ++ netBytes (headerLength + params.dataLen) ++ [0#8, 0] ++ netBytes (0b010 <<< 13) ++
    [128#8, params.protocol]

/-- The header, given the two bytes of the checksum. -/
def headerFields (params : Ipv4TransmitParams) (checksum : List (BitVec 8)) : List (BitVec 8) :=
  fieldsBefore params ++ checksum ++ (params.srcIpv4Addr.bytes ++ params.dstIpv4Addr.bytes)

/-- The checksum of the header, which is computed with zeros in its place. -/
def headerChecksum (params : Ipv4TransmitParams) : BitVec 16 :=
  netChecksum (.ofBytes (headerFields params [0, 0])) headerLength

/-- The header of a packet. -/
def headerBytes (params : Ipv4TransmitParams) : List (BitVec 8) :=
  headerFields params (netBytes (headerChecksum params))

@[simp] theorem headerBytes_length (params : Ipv4TransmitParams) :
    (headerBytes params).length = 20 := rfl

variable {params : Ipv4TransmitParams}

/-- A checksum is stored into a header. -/
theorem load_checksum {m : Memory} {n : Nat} {rest : List (BitVec 8)}
    (h : m.load 0 n = headerFields params [0, 0] ++ rest) (v : BitVec 16) :
    (m.store16 10 (htons v)).load 0 n = headerFields params (netBytes v) ++ rest := by
  rw [store16_htons, headerFields, List.append_assoc]
  rw [headerFields, List.append_assoc] at h
  exact m.load_store_middle (fieldsBefore params) (netBytes v) h rfl

/-- The header verifies. -/
theorem netChecksum_headerBytes {m : Memory} (h : m.load 0 20 = headerBytes params) :
    netChecksum m headerLength = 0 := by
  let zeroed := Memory.ofBytes (headerFields params [0, 0])
  have hzeroed : zeroed.load 0 20 = headerFields params [0, 0] ++ [] := by
    rw [List.append_nil]
    exact Memory.load_ofBytes (headerFields params [0, 0])
  have hstored := load_checksum hzeroed (headerChecksum params)
  rw [List.append_nil] at hstored
  have hverifies : netChecksum (zeroed.store16 10 (htons (headerChecksum params))) headerLength = 0 :=
    netChecksum_store16 (p := 5) (ntohs_load16_eq_iff.mpr ⟨rfl, rfl⟩) (by decide)
  rw [← hverifies]
  apply netChecksum_of_load
  exact h.trans hstored.symm

/-- The header in its block before the checksum is known. -/
def zeroedHeader (heap : Memory) (params : Ipv4TransmitParams) : Memory :=
  let m := heap.store 0 [4 <<< 4 ||| (headerLength.setWidth 8) / 4]
  let m := m.store 1 [0]
  let m := m.store16 2 (htons (headerLength + params.dataLen))
  let m := m.store 4 [0, 0]
  let m := m.store16 6 (htons (0b010 <<< 13))
  let m := m.store 8 [128]
  let m := m.store 9 [params.protocol]
  let m := m.store 10 [0, 0]
  let m := m.store 12 params.srcIpv4Addr.bytes
  m.store 16 params.dstIpv4Addr.bytes

theorem load_zeroedHeader (heap : Memory) (params : Ipv4TransmitParams) :
    (zeroedHeader heap params).load 0 20 = headerFields params [0, 0] := by
  unfold zeroedHeader
  dsimp only
  rw [store16_htons, store16_htons]
  rw [Memory.load_store_end _ _ (by simp), Memory.load_store_end _ _ (by simp),
    Memory.load_store_end _ _ (by simp), Memory.load_store_end _ _ (by simp),
    Memory.load_store_end _ _ (by simp), Memory.load_store_end _ _ (by simp),
    Memory.load_store_end _ _ (by simp), Memory.load_store_end _ _ (by simp),
    Memory.load_store_end _ _ (by simp), Memory.load_store_end _ _ (by simp)]
  rfl

theorem netChecksum_zeroedHeader (heap : Memory) (params : Ipv4TransmitParams) :
    netChecksum (zeroedHeader heap params) headerLength = headerChecksum params := by
  apply netChecksum_of_load
  exact (load_zeroedHeader heap params).trans (Memory.load_ofBytes _).symm

/-- The header of a packet does not depend on the block that the packet is built in. -/
theorem load_header (heap : Memory) (params : Ipv4TransmitParams) :
    ((zeroedHeader heap params).store16 10
      (htons (netChecksum (zeroedHeader heap params) headerLength))).load 0 20 =
      headerBytes params := by
  have hzeroed := load_zeroedHeader heap params
  rw [← List.append_nil (headerFields params _)] at hzeroed
  rw [netChecksum_zeroedHeader, load_checksum hzeroed, List.append_nil]
  rfl

/-- A packet holds its header and the payload, and no other byte of its block. -/
theorem load_buildPacket (heap : Memory) {block : Block} (hdata : params.data = some block) :
    (buildPacket heap params).load 0 (20 + params.dataLen.toNat) =
      headerBytes params ++ block.bytes.load 0 params.dataLen.toNat := by
  have hpacket : buildPacket heap params = ((zeroedHeader heap params).store16 10
      (htons (netChecksum (zeroedHeader heap params) headerLength))).store 20
      (block.bytes.load 0 params.dataLen.toNat) := by
    simp only [buildPacket, hdata]
    rfl
  rw [hpacket, Memory.load_store_end _ _ (by simp), load_header]

/-- Without data, a packet is its header; what follows is left from the block. -/
theorem load_buildPacket_none (heap : Memory) (hdata : params.data = none) :
    (buildPacket heap params).load 0 20 = headerBytes params := by
  have hpacket : buildPacket heap params = (zeroedHeader heap params).store16 10
      (htons (netChecksum (zeroedHeader heap params) headerLength)) := by
    simp only [buildPacket, hdata]
    rfl
  rw [hpacket, load_header]

/-- A packet begins with its header, whatever its data is. -/
theorem load_buildPacket_header (heap : Memory) (params : Ipv4TransmitParams) :
    (buildPacket heap params).load 0 20 = headerBytes params := by
  cases hdata : params.data with
  | none => exact load_buildPacket_none heap hdata
  | some block =>
      rw [Memory.load_take _ 0 (Nat.le_add_right 20 params.dataLen.toNat),
        load_buildPacket heap hdata]
      exact List.take_left' (headerBytes_length params)

theorem load_packet (heap : Memory) (hdata : params.data.isSome ∨ params.dataLen = 0) :
    (buildPacket heap params).load 0 (20 + params.dataLen.toNat) =
      headerBytes params ++ params.payload := by
  cases hblock : params.data with
  | some block => simpa [Ipv4TransmitParams.payload, hblock] using load_buildPacket heap hblock
  | none =>
      have hempty : params.dataLen = 0 := by simpa [hblock] using hdata
      simpa [Ipv4TransmitParams.payload, hblock, hempty] using load_buildPacket_none heap hblock

/-- The length of a packet that does not wrap. -/
theorem toNat_packetLen (hfits : 20 + params.dataLen.toNat < 2 ^ 16) :
    (headerLength + params.dataLen).toNat = 20 + params.dataLen.toNat := by
  rw [BitVec.toNat_add]
  exact Nat.mod_eq_of_lt hfits

/-- The frame of a packet is what `eth_tx` makes of it. -/
theorem ethTx_of_frame {selfNet : NetContext} {env : SendEnv} {frame : Eth.Frame}
    (h : (internalSendIpv4Packet selfNet params env).frame = some frame) :
    ∃ heap dstMac, (Eth.ethTx dstMac selfNet.mac (htons ipv4Ethertype) (buildPacket heap params)
      (headerLength + params.dataLen) env.eth).1 = some frame := by
  unfold internalSendIpv4Packet at h
  split at h
  case h_1 => cases h
  case h_2 heap _ =>
      dsimp only at h
      split at h
      case h_1 => cases h
      case h_2 dstMac _ => exact ⟨heap, dstMac, h⟩

end NetStack.Ipv4
