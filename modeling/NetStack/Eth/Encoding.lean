import NetStack.Eth.Transmit
import NetStack.Utility.Endian

/-!
# What is in a frame

The bytes of the frame that `eth_tx` builds: the header, then the payload, and nothing of the
memory the frame is built in.
-/

namespace NetStack.Eth
open NetStack.Lib NetStack.Utility

@[simp] theorem macAddr_bytes_length (a : MacAddr) : a.bytes.length = 6 := rfl

/-- The bytes of a frame, as many as go over the air. -/
def Frame.content (frame : Frame) : List (BitVec 8) := frame.bytes.load 0 frame.len.toNat

/-- `dst_mac`. -/
def Frame.dstMac (frame : Frame) : MacAddr := .read frame.bytes 0

/-- The header of a frame, with the ethertype in network order. -/
def frameHeader (dstMac srcMac : MacAddr) (ethertype : BitVec 16) : List (BitVec 8) :=
  dstMac.bytes ++ srcMac.bytes ++ netBytes ethertype

@[simp] theorem frameHeader_length (dstMac srcMac : MacAddr) (ethertype : BitVec 16) :
    (frameHeader dstMac srcMac ethertype).length = 14 := rfl

variable {dstMac srcMac : MacAddr} {ethertype : BitVec 16} {payload : Memory}
  {payloadLen : BitVec 16} {env : EthEnv} {frame : Frame}

/-- A frame holds its header and the payload. -/
theorem load_ethTx (h : (ethTx dstMac srcMac (htons ethertype) payload payloadLen env).1 = some frame) :
    frame.bytes.load 0 (14 + payloadLen.toNat) =
      frameHeader dstMac srcMac ethertype ++ payload.load 0 payloadLen.toNat := by
  unfold ethTx at h
  split at h
  case h_1 => cases h
  case h_2 heap _ =>
      obtain rfl := Option.some.inj h
      dsimp only
      rw [store16_htons, Memory.load_store_end _ _ (by simp), Memory.load_store_end _ _ (by simp),
        Memory.load_store_end _ _ (by simp), Memory.load_store_end _ _ (by simp)]
      rfl

theorem len_ethTx (h : (ethTx dstMac srcMac (htons ethertype) payload payloadLen env).1 = some frame) :
    frame.len = 14 + payloadLen := by
  unfold ethTx at h
  split at h
  case h_1 => cases h
  case h_2 =>
      obtain rfl := Option.some.inj h
      rfl

/-- Behind the payload a frame is the block that it is built in. -/
theorem byte_ethTx {heap : Memory} {k : Nat} (heth : env.malloc = some heap)
    (h : (ethTx dstMac srcMac (htons ethertype) payload payloadLen env).1 = some frame)
    (hk : 14 + payloadLen.toNat ≤ k) : frame.bytes k = heap k := by
  unfold ethTx at h
  rw [heth] at h
  obtain rfl := Option.some.inj h
  simp (disch := simp; omega) only [Memory.store16, Memory.store_after]

/-- A length that does not wrap. -/
theorem toNat_len {n : BitVec 16} (hfits : 14 + n.toNat < 2 ^ 16) : (14 + n).toNat = 14 + n.toNat := by
  rw [BitVec.toNat_add]
  exact Nat.mod_eq_of_lt hfits

/-- The wrapped length of a frame is at most what has been written. -/
theorem toNat_len_le (n : BitVec 16) : (14 + n).toNat ≤ 14 + n.toNat := by
  rw [BitVec.toNat_add]
  exact Nat.mod_le _ _

/-- The bytes of a header that is in memory. -/
theorem byte_of_header {m : Memory} (h : m.load 0 14 = frameHeader dstMac srcMac ethertype) {k : Nat}
    (hk : k < 14) : m k = (frameHeader dstMac srcMac ethertype)[k] := by
  simpa using m.byte_of_load h (k := k) hk

theorem dstMac_of_load {m : Memory} (h : m.load 0 14 = frameHeader dstMac srcMac ethertype) :
    MacAddr.read m 0 = dstMac := by
  unfold MacAddr.read
  rw [byte_of_header h (by decide), byte_of_header h (by decide), byte_of_header h (by decide),
    byte_of_header h (by decide), byte_of_header h (by decide), byte_of_header h (by decide)]
  rfl

theorem dstMac_ethTx
    (h : (ethTx dstMac srcMac (htons ethertype) payload payloadLen env).1 = some frame) :
    frame.dstMac = dstMac := by
  have hcontent := load_ethTx h
  rw [Memory.load_add] at hcontent
  exact dstMac_of_load (List.append_inj_left hcontent (by simp))

theorem ethertype_of_load {m : Memory} (h : m.load 0 14 = frameHeader dstMac srcMac ethertype) :
    ntohs (m.load16 12) = ethertype :=
  ntohs_load16_eq_iff.mpr ⟨byte_of_header h (by decide), byte_of_header h (by decide)⟩

end NetStack.Eth
