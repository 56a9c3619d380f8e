import NetStack.Arp.Worker
import NetStack.Eth.Encoding

/-!
# What is in an ARP packet

The bytes of the two packets that `arp.c` serializes, and the overlay of `struct arp_data_t` on
bytes that were serialized so.
-/

namespace NetStack.Arp
open NetStack.Lib NetStack.Eth NetStack.Utility

def ArpEvent.frame? : ArpEvent → Option Frame
  | .wifiTx frame => some frame
  | _ => none

/-- The frames that have gone to the driver since the log was `before`. -/
def transmittedSince (before after : List ArpEvent) : List Frame :=
  (after.drop before.length).filterMap ArpEvent.frame?

theorem transmittedSince_append (log events : List ArpEvent) :
    transmittedSince log (log ++ events) = events.filterMap ArpEvent.frame? := by
  rw [transmittedSince, List.drop_left]

/-- The fields up to the address of the sender. -/
def senderFields (operation : BitVec 16) (mac : MacAddr) (ip : Ipv4Addr) : List (BitVec 8) :=
  netBytes 1 ++ netBytes ipv4Ethertype ++ [6#8, 4] ++ netBytes operation ++ mac.bytes ++ ip.bytes

@[simp] theorem senderFields_length (operation : BitVec 16) (mac : MacAddr) (ip : Ipv4Addr) :
    (senderFields operation mac ip).length = 18 := rfl

variable {operation : BitVec 16} {mac : MacAddr} {ip : Ipv4Addr} {buffer : Memory}

/-- The overlay reads the fields back. -/
theorem read_senderFields (h : buffer.load 0 18 = senderFields operation mac ip) :
    ntohs (ArpData.read buffer).hardwareType = 1 ∧
      ntohs (ArpData.read buffer).protocolType = ipv4Ethertype ∧
      ntohs (ArpData.read buffer).operation = operation ∧
      (ArpData.read buffer).srcMac = mac ∧ (ArpData.read buffer).srcIp = ip := by
  have hbyte : ∀ k (hk : k < 18), buffer k = (senderFields operation mac ip)[k] := by
    intro k hk
    simpa using buffer.byte_of_load h (k := k) hk
  refine ⟨?_, ?_, ?_, ?_, ?_⟩
  · exact ntohs_load16_eq_iff.mpr ⟨hbyte 0 (by decide), hbyte 1 (by decide)⟩
  · exact ntohs_load16_eq_iff.mpr ⟨hbyte 2 (by decide), hbyte 3 (by decide)⟩
  · exact ntohs_load16_eq_iff.mpr ⟨hbyte 6 (by decide), hbyte 7 (by decide)⟩
  · simp only [ArpData.read, MacAddr.read]
    rw [hbyte 8 (by decide), hbyte 9 (by decide), hbyte 10 (by decide), hbyte 11 (by decide),
      hbyte 12 (by decide), hbyte 13 (by decide)]
    rfl
  · simp only [ArpData.read, Ipv4Addr.read]
    rw [hbyte 14 (by decide), hbyte 15 (by decide), hbyte 16 (by decide), hbyte 17 (by decide)]
    rfl

theorem read_dstIp (h : buffer.load 24 4 = ip.bytes) : (ArpData.read buffer).dstIp = ip := by
  have hbyte : ∀ k (hk : k < 4), buffer (24 + k) = ip.bytes[k] := fun k hk =>
    buffer.byte_of_load h (k := k) hk
  simp only [ArpData.read, Ipv4Addr.read]
  rw [hbyte 1 (by decide), hbyte 2 (by decide), hbyte 3 (by decide), ← Nat.add_zero 24,
    hbyte 0 (by decide)]
  rfl

/-- A request names its sender. -/
theorem load_arpRequestBuf (stack : Memory) (g : ArpGlobals) (ip : Ipv4Addr) :
    (arpRequestBuf stack g ip).load 0 18 =
      senderFields arpOpRequest g.selfMacAddr g.selfIpAddr := by
  unfold arpRequestBuf
  dsimp only
  rw [store16_htons, store16_htons, store16_htons, Memory.load_store_disjoint _ _ (.inl (by decide)),
    Memory.load_store_end _ _ (by simp), Memory.load_store_end _ _ (by simp),
    Memory.load_store_end _ _ (by simp), Memory.load_store_end _ _ (by simp),
    Memory.load_store_end _ _ (by simp), Memory.load_store_end _ _ (by simp),
    Memory.load_store_end _ _ (by simp)]
  rfl

/-- A request ends with the address that it asks for. -/
theorem load_arpRequestBuf_dstIp (stack : Memory) (g : ArpGlobals) (ip : Ipv4Addr) :
    (arpRequestBuf stack g ip).load 24 4 = ip.bytes := by
  unfold arpRequestBuf
  exact Memory.load_store _ 24 ip.bytes

/-- Every byte of a reply is written. -/
theorem load_arpReplyBuf (stack : Memory) (g : ArpGlobals) (mac : MacAddr) (ip : Ipv4Addr) :
    (arpReplyBuf stack g mac ip).load 0 28 =
      senderFields arpOpReply g.selfMacAddr g.selfIpAddr ++ (mac.bytes ++ ip.bytes) := by
  unfold arpReplyBuf
  dsimp only
  rw [store16_htons, store16_htons, store16_htons,
    Memory.load_store_end _ _ (by simp), Memory.load_store_end _ _ (by simp),
    Memory.load_store_end _ _ (by simp), Memory.load_store_end _ _ (by simp),
    Memory.load_store_end _ _ (by simp), Memory.load_store_end _ _ (by simp),
    Memory.load_store_end _ _ (by simp), Memory.load_store_end _ _ (by simp),
    Memory.load_store_end _ _ (by simp)]
  rfl

/-- A reply read in its three parts. -/
theorem load_arpReplyBuf_parts (stack : Memory) (g : ArpGlobals) (mac : MacAddr) (ip : Ipv4Addr) :
    (arpReplyBuf stack g mac ip).load 0 18 = senderFields arpOpReply g.selfMacAddr g.selfIpAddr ∧
      (arpReplyBuf stack g mac ip).load 18 6 = mac.bytes ∧
      (arpReplyBuf stack g mac ip).load 24 4 = ip.bytes := by
  have h := load_arpReplyBuf stack g mac ip
  rw [Memory.load_add _ 0 18 10, Memory.load_add _ (0 + 18) 6 4] at h
  obtain ⟨hsender, htarget⟩ := List.append_inj h (by simp)
  obtain ⟨hmac, hip⟩ := List.append_inj htarget (by simp)
  exact ⟨hsender, hmac, hip⟩

end NetStack.Arp
