import NetStack.Ipv4.Encoding
import NetStack.Ipv4.Proofs.Acceptance

/-!
# Ping is answered

An echo request that IPv4 accepts is answered with its own identifier, sequence number and data.
The length of the data comes from the header of the packet, so that padding behind it is not sent
back. Nothing else is answered.
-/

namespace NetStack.Icmpv4
open NetStack.Lib NetStack.Utility NetStack.Ipv4

/-- An echo request: there is room for a header, which has type 8 and code 0. -/
structure IsEchoRequest (buffer : Memory) : Prop where
  long : 28 ≤ (totalLength buffer).toNat
  type : buffer 20 = 8
  code : buffer 21 = 0

/-- The packet answers the request in `buffer`. -/
structure IsEchoReply (selfNet : NetContext) (buffer : Memory) (reply : Ipv4TransmitParams) :
    Prop where
  src : reply.srcIpv4Addr = selfNet.ip
  dst : reply.dstIpv4Addr = Ipv4Addr.read buffer 12
  protocol : reply.protocol = icmpProtocolNumber
  dataLen : reply.dataLen.toNat = (totalLength buffer).toNat - 20
  /-- Type 0 and code 0, the checksum, then identifier, sequence number and data as they came. -/
  message : ∃ checksum, reply.payload = [0, 0] ++ netBytes checksum ++
    (buffer.load 24 4 ++ buffer.load 28 ((totalLength buffer).toNat - 28))
  verifies : netChecksum (.ofBytes reply.payload) reply.dataLen = 0

/-! ### The reply in its block -/

section Message
variable (heap : Memory) (id seqNum : BitVec 16) (data : Memory) (dataLen : BitVec 16)

/-- The reply before its checksum is known. -/
def zeroedReply : Memory :=
  let m := heap.store 0 [0]
  let m := m.store 1 [0]
  let m := m.store16 2 0
  let m := m.store16 4 (htons id)
  let m := m.store16 6 (htons seqNum)
  m.store 8 (data.load 0 dataLen.toNat)

theorem load_zeroedReply :
    (zeroedReply heap id seqNum data dataLen).load 0 (8 + dataLen.toNat) =
      [0, 0] ++ [0, 0] ++ (netBytes id ++ netBytes seqNum ++ data.load 0 dataLen.toNat) := by
  have hzero : ∀ m : Memory, m.store16 2 0 = m.store 2 [0, 0] := fun _ => rfl
  unfold zeroedReply
  dsimp only
  rw [store16_htons, store16_htons, hzero]
  rw [Memory.load_store_end _ _ (by simp), Memory.load_store_end _ _ (by simp),
    Memory.load_store_end _ _ (by simp), Memory.load_store_end _ _ (by simp),
    Memory.load_store_end _ _ (by simp), Memory.load_store_end _ _ (by simp)]
  rfl

/-- The checksum of the reply. -/
def replyChecksum : BitVec 16 :=
  netChecksum (zeroedReply heap id seqNum data dataLen) (icmpv4HeaderSize + dataLen)

theorem pingReplyPacket_eq :
    pingReplyPacket heap id seqNum data dataLen =
      (zeroedReply heap id seqNum data dataLen).store16 2
        (htons (replyChecksum heap id seqNum data dataLen)) := rfl

theorem load_pingReplyPacket :
    (pingReplyPacket heap id seqNum data dataLen).load 0 (8 + dataLen.toNat) =
      [0, 0] ++ netBytes (replyChecksum heap id seqNum data dataLen) ++
        (netBytes id ++ netBytes seqNum ++ data.load 0 dataLen.toNat) := by
  rw [pingReplyPacket_eq, store16_htons]
  exact Memory.load_store_middle _ [0, 0] _ (load_zeroedReply heap id seqNum data dataLen) rfl

variable {dataLen}

theorem toNat_replyLen (h : dataLen.toNat + 8 < 65536) :
    (icmpv4HeaderSize + dataLen).toNat = 8 + dataLen.toNat := by
  rw [BitVec.toNat_add]
  exact Nat.mod_eq_of_lt (Nat.add_comm dataLen.toNat 8 ▸ h)

/-- The reply verifies if its length fits. -/
theorem netChecksum_pingReplyPacket (h : dataLen.toNat + 8 < 65536) :
    netChecksum (pingReplyPacket heap id seqNum data dataLen) (icmpv4HeaderSize + dataLen) = 0 := by
  have hload := load_zeroedReply heap id seqNum data dataLen
  have hlow := Memory.byte_of_load _ hload (k := 2) (by simp)
  have hhigh := Memory.byte_of_load _ hload (k := 3) (by simp)
  rw [pingReplyPacket_eq]
  apply netChecksum_store16 (p := 1)
  · exact ntohs_load16_eq_iff.mpr ⟨hlow, hhigh⟩
  · rw [toNat_replyLen h]
    omega

end Message

/-- Two bytes that are read and sent in network order. -/
theorem netBytes_ntohs_load16 (m : Memory) (off : Nat) :
    netBytes (ntohs (m.load16 off)) = m.load off 2 := by
  obtain ⟨hhigh, hlow⟩ := ntohs_load16_eq_iff.mp (Eq.refl (ntohs (m.load16 off)))
  rw [netBytes, ← hhigh, ← hlow]
  rfl

/-! ### The answer -/

section Answer
variable {selfNet : NetContext} {buffer : Memory} {bufferLen : BitVec 16}

/-- The length of the data in a request. -/
def requestDataLen (buffer : Memory) : BitVec 16 :=
  totalLength buffer - ipv4HeaderSize - icmpv4HeaderSize

theorem toNat_requestDataLen (h : 28 ≤ (totalLength buffer).toNat) :
    (requestDataLen buffer).toNat = (totalLength buffer).toNat - 28 := by
  have hbound := (totalLength buffer).isLt
  rw [requestDataLen, BitVec.toNat_sub, BitVec.toNat_sub]
  change (2 ^ 16 - 8 + (2 ^ 16 - 20 + (totalLength buffer).toNat) % 2 ^ 16) % 2 ^ 16 = _
  omega

/-- What `icmpv4_input` puts into the queue for a request. -/
def replyTo (selfNet : NetContext) (buffer : Memory) (block : Block) : Ipv4TransmitParams where
  srcIpv4Addr := selfNet.ip
  dstIpv4Addr := Ipv4Addr.read buffer 12
  protocol := icmpProtocolNumber
  data := some ⟨block.addr, pingReplyPacket block.bytes (ntohs (buffer.load16 24))
    (ntohs (buffer.load16 26)) (buffer.advance 28) (requestDataLen buffer)⟩
  dataLen := icmpv4HeaderSize + requestDataLen buffer

theorem not_short_iff : ¬ totalLength buffer < ipv4HeaderSize + icmpv4HeaderSize ↔
    28 ≤ (totalLength buffer).toNat := by
  rw [BitVec.lt_def, Nat.not_lt]
  exact Iff.rfl

theorem icmpv4Input_of_request (h : IsEchoRequest buffer) (block : Block) :
    icmpv4Input selfNet buffer (totalLength buffer) ⟨some block, true⟩ =
      some (replyTo selfNet buffer block) := by
  unfold icmpv4Input
  rw [if_neg (not_short_iff.mpr h.long)]
  exact if_pos ⟨h.type, h.code⟩

theorem icmpv4Input_of_not_request (h : ¬ IsEchoRequest buffer) (env : PingEnv) :
    icmpv4Input selfNet buffer (totalLength buffer) env = none := by
  unfold icmpv4Input
  split
  case isTrue => rfl
  case isFalse hlong =>
      apply if_neg
      rintro ⟨htype, hcode⟩
      exact h ⟨not_short_iff.mp hlong, htype, hcode⟩

theorem payload_replyTo (h : 28 ≤ (totalLength buffer).toNat) (block : Block) :
    (replyTo selfNet buffer block).payload =
      (pingReplyPacket block.bytes (ntohs (buffer.load16 24)) (ntohs (buffer.load16 26))
        (buffer.advance 28) (requestDataLen buffer)).load 0 (8 + (requestDataLen buffer).toNat) := by
  have hbound := (totalLength buffer).isLt
  have hlen := toNat_requestDataLen h
  rw [← toNat_replyLen (by omega)]
  rfl

theorem isEchoReply_replyTo (h : 28 ≤ (totalLength buffer).toNat) (block : Block) :
    IsEchoReply selfNet buffer (replyTo selfNet buffer block) := by
  have hbound := (totalLength buffer).isLt
  have hlen := toNat_requestDataLen h
  have hsmall : (requestDataLen buffer).toNat + 8 < 65536 := by omega
  have hpayload : (replyTo selfNet buffer block).payload = _ := payload_replyTo h block
  constructor
  case src => rfl
  case dst => rfl
  case protocol => rfl
  case dataLen =>
      change (icmpv4HeaderSize + requestDataLen buffer).toNat = _
      rw [toNat_replyLen hsmall, hlen]
      omega
  case message =>
      rw [hpayload, load_pingReplyPacket, netBytes_ntohs_load16, netBytes_ntohs_load16,
        ← Memory.load_add, Memory.load_advance, hlen]
      exact ⟨_, rfl⟩
  case verifies =>
      rw [← netChecksum_pingReplyPacket block.bytes (ntohs (buffer.load16 24))
        (ntohs (buffer.load16 26)) (buffer.advance 28) hsmall]
      apply netChecksum_of_load
      rw [hpayload]
      change Memory.load _ 0 (icmpv4HeaderSize + requestDataLen buffer).toNat =
        Memory.load _ 0 (icmpv4HeaderSize + requestDataLen buffer).toNat
      rw [toNat_replyLen hsmall]
      have hofBytes := Memory.load_ofBytes ((pingReplyPacket block.bytes (ntohs (buffer.load16 24))
        (ntohs (buffer.load16 26)) (buffer.advance 28) (requestDataLen buffer)).load 0
          (8 + (requestDataLen buffer).toNat))
      rwa [Memory.load_length] at hofBytes

/-- What IPv4 hands to ICMP. -/
theorem handed_to_icmp {b : Memory} {len : BitVec 16}
    (h : ipv4Input selfNet buffer bufferLen = some (.icmpv4Input b len)) :
    b = buffer ∧ len = totalLength buffer := by
  have hcall := (ipv4Input_eq_some_iff.mp h).2
  unfold dispatchProtocol at hcall
  split_ifs at hcall
  · obtain ⟨rfl, rfl⟩ := Ipv4Call.icmpv4Input.inj (Option.some.inj hcall)
    exact ⟨rfl, rfl⟩
  · cases hcall

/-- Of the packets that IPv4 hands to ICMP, echo requests are answered, and only they. -/
theorem ping_answered {b : Memory} {len : BitVec 16}
    (h : ipv4Input selfNet buffer bufferLen = some (.icmpv4Input b len)) :
    (IsEchoRequest buffer → ∀ block, ∃ reply,
      icmpv4Input selfNet b len ⟨some block, true⟩ = some reply ∧
        IsEchoReply selfNet buffer reply) ∧
    (¬ IsEchoRequest buffer → ∀ env, icmpv4Input selfNet b len env = none) := by
  obtain ⟨rfl, rfl⟩ := handed_to_icmp h
  constructor
  · intro hrequest block
    exact ⟨_, icmpv4Input_of_request hrequest block, isEchoReply_replyTo hrequest.long block⟩
  · intro hrequest env
    exact icmpv4Input_of_not_request hrequest env

end Answer

/-- An echo request to 10.0.0.2 with three bytes of data, in a frame that is padded. -/
def paddedRequest : Memory :=
  .ofBytes ([0x45, 0, 0, 31, 0, 1, 0x40, 0, 128, 1, 0xE6, 0xDA, 10, 0, 0, 1, 10, 0, 0, 2] ++
    [8, 0, 0xE1, 0xC8, 0x12, 0x34, 0, 1, 1, 2, 3] ++ List.replicate 15 0)

/-- It is accepted, and answered. -/
theorem padded_request_answered :
    ∃ reply, icmpv4Input ⟨⟨2, 0, 0, 0, 0, 2⟩, ⟨10, 0, 0, 2⟩⟩ paddedRequest 31
        ⟨some ⟨0, fun _ => 0xFF⟩, true⟩ = some reply ∧
      IsEchoReply ⟨⟨2, 0, 0, 0, 0, 2⟩, ⟨10, 0, 0, 2⟩⟩ paddedRequest reply := by
  have hpasses : Passes ⟨⟨2, 0, 0, 0, 0, 2⟩, ⟨10, 0, 0, 2⟩⟩ paddedRequest 46 := by
    decide +kernel
  have htotal : totalLength paddedRequest = 31 := by decide +kernel
  have hcall : ipv4Input ⟨⟨2, 0, 0, 0, 0, 2⟩, ⟨10, 0, 0, 2⟩⟩ paddedRequest 46 =
      some (.icmpv4Input paddedRequest 31) := by
    refine ipv4Input_eq_some_iff.mpr ⟨hpasses, ?_⟩
    rw [htotal]
    rfl
  refine (ping_answered hcall).1 ⟨?_, by decide, by decide⟩ ⟨0, fun _ => 0xFF⟩
  rw [htotal]
  decide

end NetStack.Icmpv4
