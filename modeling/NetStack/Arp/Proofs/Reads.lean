import NetStack.Arp.Input

/-!
# The bytes that ARP uses

`arp_input` acts on a packet whose type, operation and destination are right, and ignores every
other one. Each of these bytes settles on its own that a packet is ignored; a packet that is
not settled so depends on all 28 bytes.
-/

namespace NetStack.Arp
open NetStack.Lib NetStack.Eth NetStack.Utility

/-- Byte `k` of a packet may be `b` if `arp_input` acts on the packet. -/
def mayBe (selfIp : Ipv4Addr) (b : BitVec 8) : Nat → Bool
  | 0 => b == 0
  | 1 => b == 1
  | 2 => b == 8
  | 3 => b == 0
  | 6 => b == 0
  | 7 => b == 1 || b == 2
  | 24 => b == selfIp.b0
  | 25 => b == selfIp.b1
  | 26 => b == selfIp.b2
  | 27 => b == selfIp.b3
  | _ => true

/-- The checks of `arp_input` that let a packet through. -/
structure Acts (selfIp : Ipv4Addr) (data : ArpData) : Prop where
  hardwareType : ntohs data.hardwareType = 1
  protocolType : ntohs data.protocolType = ipv4Ethertype
  dstIp : data.dstIp = selfIp
  operation : ntohs data.operation = arpOpReply ∨ ntohs data.operation = arpOpRequest

theorem acts_iff {selfIp : Ipv4Addr} {m : Memory} :
    Acts selfIp (.read m) ↔ ∀ k, mayBe selfIp (m k) k = true := by
  have h1 : (1 : BitVec 16).extractLsb' 8 8 = 0#8 ∧ (1 : BitVec 16).extractLsb' 0 8 = 1#8 := by
    decide
  have h2 : arpOpReply.extractLsb' 8 8 = 0#8 ∧ arpOpReply.extractLsb' 0 8 = 2#8 := by decide
  have h3 : arpOpRequest.extractLsb' 8 8 = 0#8 ∧ arpOpRequest.extractLsb' 0 8 = 1#8 := by decide
  have h4 : ipv4Ethertype.extractLsb' 8 8 = 8#8 ∧ ipv4Ethertype.extractLsb' 0 8 = 0#8 := by
    decide
  constructor
  · rintro ⟨hhw, hproto, hdst, hop⟩ k
    rw [ArpData.read, ntohs_load16_eq_iff] at hhw hproto
    rw [ArpData.read, ntohs_load16_eq_iff, ntohs_load16_eq_iff] at hop
    simp only [ArpData.read, Ipv4Addr.read] at hdst
    subst hdst
    unfold mayBe
    rcases hop with hop | hop <;> split <;> simp_all
  · intro h
    have hbyte := fun k => h k
    have hk0 := hbyte 0
    have hk1 := hbyte 1
    have hk2 := hbyte 2
    have hk3 := hbyte 3
    have hk6 := hbyte 6
    have hk7 := hbyte 7
    have hk24 := hbyte 24
    have hk25 := hbyte 25
    have hk26 := hbyte 26
    have hk27 := hbyte 27
    simp only [mayBe, beq_iff_eq, Bool.or_eq_true] at hk0 hk1 hk2 hk3 hk6 hk7 hk24 hk25 hk26 hk27
    constructor
    case hardwareType => exact ntohs_load16_eq_iff.mpr ⟨hk0.trans h1.1.symm, hk1.trans h1.2.symm⟩
    case protocolType => exact ntohs_load16_eq_iff.mpr ⟨hk2.trans h4.1.symm, hk3.trans h4.2.symm⟩
    case dstIp => simp only [ArpData.read, Ipv4Addr.read, hk24, hk25, hk26, hk27]
    case operation =>
        rcases hk7 with hk7 | hk7
        · exact .inr (ntohs_load16_eq_iff.mpr ⟨hk6.trans h3.1.symm, hk7.trans h3.2.symm⟩)
        · exact .inl (ntohs_load16_eq_iff.mpr ⟨hk6.trans h2.1.symm, hk7.trans h2.2.symm⟩)

/-- A packet that does not get through leaves nothing behind. -/
theorem arpInput_ignored {g : ArpGlobals} {m : Memory} {len : BitVec 16} {env : ArpEnv}
    (h : ¬ Acts g.selfIpAddr (.read m)) : arpInput g m len env = g := by
  unfold arpInput
  simp only
  split_ifs with hhw hproto hdst hreply hrequest
  · rfl
  · rfl
  · rfl
  · exact absurd ⟨not_not.mp hhw, not_not.mp hproto, not_not.mp hdst, .inl hreply⟩ h
  · exact absurd ⟨not_not.mp hhw, not_not.mp hproto, not_not.mp hdst, .inr hrequest⟩ h
  · rfl

theorem queueArpEntry_log (g : ArpGlobals) (entry : ArpEntry) :
    ∃ accepted, (queueArpEntry g entry).log = g.log ++ [.queueEntry entry accepted] := by
  unfold queueArpEntry
  split
  · exact ⟨true, rfl⟩
  · exact ⟨false, rfl⟩

/-- A packet that gets through is queued or answered. -/
theorem arpInput_acts {g : ArpGlobals} {m : Memory} {len : BitVec 16} {env : ArpEnv}
    (h : Acts g.selfIpAddr (.read m)) : (arpInput g m len env).log ≠ g.log := by
  intro hlog
  have hlength := congrArg List.length hlog
  unfold arpInput at hlength
  simp only [h.hardwareType, h.protocolType, h.dstIp, ne_eq, not_true_eq_false, if_false] at hlength
  split at hlength
  case isTrue =>
      obtain ⟨accepted, hqueued⟩ := queueArpEntry_log g ⟨(ArpData.read m).srcIp, (ArpData.read m).srcMac⟩
      simp [hqueued] at hlength
  case isFalse hreply =>
      simp only [h.operation.resolve_left hreply, if_true, sendArpReply] at hlength
      simp only [List.length_append, List.length_cons, List.length_nil] at hlength
      omega

/-- A packet is 28 bytes long. -/
theorem ArpData.read_congr {m m' : Memory} (h : Memory.AgreeBelow arpDataSize m m') :
    ArpData.read m' = .read m := by
  have hbyte : ∀ k < 28, m' k = m k := h
  simp only [ArpData.read, MacAddr.read, Ipv4Addr.read, Memory.load16, hbyte, Nat.reduceLT,
    Nat.reduceAdd]

theorem arpInput_congr {g : ArpGlobals} {m m' : Memory} {len : BitVec 16} {env : ArpEnv}
    (h : Memory.AgreeBelow arpDataSize m m') : arpInput g m' len env = arpInput g m len env := by
  unfold arpInput
  rw [ArpData.read_congr h]

/-- A byte at which every packet that gets through may be this one. -/
def wanted (selfIp : Ipv4Addr) : Nat → BitVec 8
  | 1 => 1
  | 2 => 8
  | 7 => 2
  | 24 => selfIp.b0
  | 25 => selfIp.b1
  | 26 => selfIp.b2
  | 27 => selfIp.b3
  | _ => 0

theorem mayBe_wanted (selfIp : Ipv4Addr) (k : Nat) : mayBe selfIp (wanted selfIp k) k = true := by
  unfold mayBe
  split <;> simp [wanted]

/-- `arp_input` uses no byte from `n` on exactly if the packet is complete or a byte before
    `n` settles that it is ignored. -/
theorem arpInput_readsBelow_iff {g : ArpGlobals} {m : Memory} {len : BitVec 16} {env : ArpEnv}
    {n : Nat} :
    Memory.ReadsBelow n (fun m => arpInput g m len env) m ↔
      arpDataSize ≤ n ∨ ∃ k < n, mayBe g.selfIpAddr (m k) k = false := by
  constructor
  · intro h
    by_contra hno
    obtain ⟨hshort, hopen⟩ : n < 28 ∧ ∀ k < n, mayBe g.selfIpAddr (m k) k = true := by
      simpa [arpDataSize] using hno
    -- the same start goes on as a packet for us, and as one for somebody else
    have hacts : Acts g.selfIpAddr (.read (m.upTo n (wanted g.selfIpAddr))) := by
      apply acts_iff.mpr
      intro k
      unfold Memory.upTo
      split
      case isTrue hk => exact hopen k hk
      case isFalse => exact mayBe_wanted g.selfIpAddr k
    have hignored : ¬ Acts g.selfIpAddr (.read (m.upTo n fun _ => g.selfIpAddr.b3 + 1)) := by
      intro hacts
      have h27 := acts_iff.mp hacts 27
      simp [mayBe, Memory.upTo, show ¬ 27 < n by omega] at h27
    refine Memory.not_readsBelow (wanted g.selfIpAddr) (fun _ => g.selfIpAddr.b3 + 1)
      (fun hsame => ?_) h
    rw [arpInput_ignored hignored] at hsame
    exact arpInput_acts hacts (congrArg ArpGlobals.log hsame)
  · rintro (hle | ⟨k, hk, hsettled⟩)
    · exact Memory.ReadsBelow.mono hle fun m' hm => arpInput_congr hm
    · intro m' hm
      have hnot : ∀ {m : Memory}, mayBe g.selfIpAddr (m k) k = false →
          ¬ Acts g.selfIpAddr (.read m) := by
        intro m hbyte hacts
        simp [acts_iff.mp hacts k] at hbyte
      have hsettled' : mayBe g.selfIpAddr (m' k) k = false := by rwa [hm k hk]
      exact (arpInput_ignored (hnot hsettled')).trans (arpInput_ignored (hnot hsettled)).symm

end NetStack.Arp
