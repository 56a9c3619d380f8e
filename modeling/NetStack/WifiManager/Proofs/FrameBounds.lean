import NetStack.Arp.Proofs.Reads
import NetStack.WifiManager.Receive

/-!
# Reception stays inside the frame

The length that `wifi_rxcb` hands on is right for every frame with a header, and wraps for a
shorter one; `arp_input` does not look at it. Which frames are received without using a byte
that is not theirs follows from their length and their bytes alone.
-/

namespace NetStack.WifiManager
open NetStack.Lib NetStack.Arp

/-- The payload and the length that a call hands to a protocol. -/
def RxCall.payload? : RxCall → Option (Memory × BitVec 16)
  | .arpInput buffer len | .ipv4Input buffer len => some (buffer, len)
  | .freeRxBuffer _ | .free => none

/-- The reception of a frame of `len` bytes stays inside it: what is handed on are the bytes
    behind the header, and ARP uses no other ones. -/
structure StaysInside (g : ArpGlobals) (env : ArpEnv) (frame : Memory) (len : BitVec 16)
    (calls : List RxCall) : Prop where
  payload : ∀ call ∈ calls, ∀ buffer n, call.payload? = some (buffer, n) →
    14 ≤ len.toNat ∧ buffer = frame.advance 14 ∧ n.toNat = len.toNat - 14
  reads : ∀ buffer n, .arpInput buffer n ∈ calls →
    Memory.ReadsBelow n.toNat (fun m => arpInput g m n env) buffer

/-- A frame that a protocol takes has a header, and an ARP frame is complete or settles in the
    bytes it has that it is ignored. -/
def Complete (selfIp : Ipv4Addr) (frame : Memory) (len : BitVec 16) : Prop :=
  if ethertype frame = arpEthertype then
    14 ≤ len.toNat ∧
      (14 + arpDataSize ≤ len.toNat ∨
        ∃ k < len.toNat - 14, mayBe selfIp (bufferData frame k) k = false)
  else if ethertype frame = ipv4Ethertype then 14 ≤ len.toNat
  else True

theorem mem_wifiRxcb {counters : RxCounters} {frame : Memory} {len : BitVec 16}
    {eb : Option Nat} {call : RxCall} {p : Memory × BitVec 16} (hp : call.payload? = some p) :
    call ∈ (wifiRxcb counters frame len eb).2 ↔ dispatch frame len = some call := by
  have hfree : call ≠ .free ∧ ∀ eb, call ≠ .freeRxBuffer eb := by
    constructor
    · rintro rfl
      cases hp
    · rintro eb rfl
      cases hp
  cases eb with
  | none => simp [wifiRxcb, hfree.1]
  | some eb => simp [wifiRxcb, hfree.2 eb]

theorem bufferDataLen_toNat {len : BitVec 16} :
    (bufferDataLen len).toNat = len.toNat - 14 ∧ 14 ≤ len.toNat ↔ 14 ≤ len.toNat := by
  refine ⟨And.right, fun h => ⟨?_, h⟩⟩
  rw [bufferDataLen, BitVec.toNat_sub_of_le]
  · rfl
  · exact BitVec.le_def.mpr h

/-- A frame is received without using a byte behind it exactly if it is complete. -/
theorem staysInside_iff (g : ArpGlobals) (env : ArpEnv) (counters : RxCounters) (frame : Memory)
    (len : BitVec 16) (eb : Option Nat) :
    StaysInside g env frame len (wifiRxcb counters frame len eb).2 ↔
      Complete g.selfIpAddr frame len := by
  have hlen := @bufferDataLen_toNat len
  have hdispatch : ∀ call buffer n, call.payload? = some (buffer, n) →
      (call ∈ (wifiRxcb counters frame len eb).2 ↔ dispatch frame len = some call) :=
    fun call buffer n hp => mem_wifiRxcb hp
  unfold Complete
  split_ifs with harp hipv4
  · -- an ARP frame
    have hcall : dispatch frame len = some (.arpInput (bufferData frame) (bufferDataLen len)) :=
      if_pos harp
    have hmem := (hdispatch (.arpInput _ _) _ _ rfl).mpr hcall
    constructor
    · intro h
      obtain ⟨hheader, -, hn⟩ := h.payload _ hmem _ _ rfl
      have hreads := arpInput_readsBelow_iff.mp (h.reads _ _ hmem)
      rw [hn] at hreads
      refine ⟨hheader, hreads.imp_left fun hle => ?_⟩
      omega
    · rintro ⟨hheader, hcomplete⟩
      have hn := (hlen.mpr hheader).1
      constructor
      case payload =>
          intro call hin buffer n hp
          obtain rfl := Option.some.inj (hcall.symm.trans ((hdispatch call buffer n hp).mp hin))
          obtain ⟨rfl, rfl⟩ := Prod.mk.inj (Option.some.inj hp)
          exact ⟨hheader, rfl, hn⟩
      case reads =>
          intro buffer n hin
          have hsame := hcall.symm.trans ((hdispatch (.arpInput buffer n) _ _ rfl).mp hin)
          obtain ⟨rfl, rfl⟩ := RxCall.arpInput.inj (Option.some.inj hsame)
          rw [arpInput_readsBelow_iff, hn]
          apply hcomplete.imp_left
          intro hle
          omega
  · -- an IPv4 packet
    have hcall : dispatch frame len = some (.ipv4Input (bufferData frame) (bufferDataLen len)) := by
      rw [dispatch, if_neg harp, if_pos hipv4]
    have hmem := (hdispatch (.ipv4Input _ _) _ _ rfl).mpr hcall
    constructor
    · intro h
      exact (h.payload _ hmem _ _ rfl).1
    · intro hheader
      constructor
      case payload =>
          intro call hin buffer n hp
          obtain rfl := Option.some.inj (hcall.symm.trans ((hdispatch call buffer n hp).mp hin))
          obtain ⟨rfl, rfl⟩ := Prod.mk.inj (Option.some.inj hp)
          exact ⟨hheader, rfl, (hlen.mpr hheader).1⟩
      case reads =>
          intro buffer n hin
          have hsame := hcall.symm.trans ((hdispatch (.arpInput buffer n) _ _ rfl).mp hin)
          cases Option.some.inj hsame
  · -- nobody's frame
    have hcall : dispatch frame len = none := by
      rw [dispatch, if_neg harp, if_neg hipv4]
    refine iff_of_true ⟨fun call hin buffer n hp => ?_, fun buffer n hin => ?_⟩ trivial
    · cases hcall.symm.trans ((hdispatch call buffer n hp).mp hin)
    · cases hcall.symm.trans ((hdispatch (.arpInput buffer n) _ _ rfl).mp hin)

/-! ### Frames that are not complete -/

/-- The memory from the start of a frame that is cut off after the sender's address: what
    happens to stand behind it completes it to an ARP reply for 192.168.1.230. -/
def cutReply : Memory := fun k =>
  [0x28, 0xCD, 0xC1, 0, 0, 1, 0x28, 0xCD, 0xC1, 0, 0, 2, 0x08, 0x06,
    0, 1, 8, 0, 6, 4, 0, 2, 0x28, 0xCD, 0xC1, 0, 0, 2, 192, 168, 1, 214,
    0, 0, 0, 0, 0, 0, 192, 168, 1, 230].getD k 0

/-- The node that receives it. -/
def receiver : ArpGlobals := ⟨⟨192, 168, 1, 230⟩, ⟨0x28, 0xCD, 0xC1, 0, 0, 1⟩, [], [], []⟩

/-- Memory and transmission succeed. -/
def arpSucceeds : ArpEnv := ⟨fun _ => 0, ⟨some fun _ => 0, .ok⟩⟩

/-- Of 32 received bytes ARP uses more than there are, and of 13 received bytes a payload of
    65535 bytes is handed on. -/
theorem cut_frames_not_inside :
    ¬ StaysInside receiver arpSucceeds cutReply 32 (wifiRxcb {} cutReply 32 none).2 ∧
      ¬ StaysInside receiver arpSucceeds cutReply 13 (wifiRxcb {} cutReply 13 none).2 := by
  have hcall : ∀ len, .arpInput (bufferData cutReply) (bufferDataLen len) ∈
      (wifiRxcb {} cutReply len none).2 :=
    fun len => (mem_wifiRxcb rfl).mpr (if_pos (by decide))
  constructor
  · intro h
    have hreads := arpInput_readsBelow_iff.mp (h.reads _ _ (hcall 32))
    revert hreads
    decide +kernel
  · intro h
    have hheader := (h.payload _ (hcall 13) _ _ rfl).1
    exact absurd hheader (by decide)

end NetStack.WifiManager
