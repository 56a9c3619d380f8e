import NetStack.Ipv4.Input
import NetStack.Utility.Proofs.Checksum

/-!
# Which packets IPv4 accepts

The checks of `ipv4_input` as one predicate on the packet. A complete packet without options for
this node passes them, but so does a fragment, and a packet whose total length is less than its
header. What is accepted is what should be accepted exactly where these two do not occur.
-/

namespace NetStack.Ipv4
open NetStack.Lib NetStack.Utility NetStack.Icmpv4

/-- `total_len` of a packet. -/
def totalLength (buffer : Memory) : BitVec 16 := ntohs (Ipv4Header.read buffer).totalLength

/-- The packet passes the checks of `ipv4_input`. -/
structure Passes (selfNet : NetContext) (buffer : Memory) (bufferLen : BitVec 16) : Prop where
  long : 20 ≤ bufferLen.toNat
  version : buffer 0 >>> 4 = 4
  ihl : buffer 0 &&& 0x0F = 5
  total : (totalLength buffer).toNat ≤ bufferLen.toNat
  checksum : netChecksum buffer headerLength = 0
  dst : (Ipv4Header.read buffer).dstIpv4Addr = selfNet.ip

/-- The checks with the sum in place of the checksum, so that they can be evaluated. -/
theorem passes_iff {selfNet : NetContext} {buffer : Memory} {bufferLen : BitVec 16} :
    Passes selfNet buffer bufferLen ↔
      20 ≤ bufferLen.toNat ∧ buffer 0 >>> 4 = 4 ∧ buffer 0 &&& 0x0F = 5 ∧
        (totalLength buffer).toNat ≤ bufferLen.toNat ∧
        ((checksumSum buffer headerLength).toNat % 65535 = 0 ∧
          (checksumSum buffer headerLength).toNat ≠ 0) ∧
        (Ipv4Header.read buffer).dstIpv4Addr = selfNet.ip := by
  rw [← netChecksum_eq_zero_iff]
  constructor
  · rintro ⟨hlong, hversion, hihl, htotal, hchecksum, hdst⟩
    exact ⟨hlong, hversion, hihl, htotal, hchecksum, hdst⟩
  · rintro ⟨hlong, hversion, hihl, htotal, hchecksum, hdst⟩
    exact ⟨hlong, hversion, hihl, htotal, hchecksum, hdst⟩

instance (selfNet : NetContext) (buffer : Memory) (bufferLen : BitVec 16) :
    Decidable (Passes selfNet buffer bufferLen) := decidable_of_iff _ passes_iff.symm

/-- The packet is a fragment: there are more fragments, or it is not the first. -/
def isFragment (buffer : Memory) : Bool :=
  ntohs (Ipv4Header.read buffer).flagsAndFragmentOffset &&& 0x3FFF != 0

/-- A complete packet without options for this node. -/
structure Complete (selfNet : NetContext) (buffer : Memory) (bufferLen : BitVec 16) : Prop
    extends Passes selfNet buffer bufferLen where
  header : 20 ≤ (totalLength buffer).toNat
  whole : isFragment buffer = false

/-- `ipv4_input` calls a protocol exactly for the complete packets that name it. -/
structure AcceptsExactly (selfNet : NetContext) (buffer : Memory) (bufferLen : BitVec 16) :
    Prop where
  icmp : (∃ b len, ipv4Input selfNet buffer bufferLen = some (.icmpv4Input b len)) ↔
    Complete selfNet buffer bufferLen ∧ (Ipv4Header.read buffer).protocol = icmpProtocolNumber
  tcp : (∃ b len src, ipv4Input selfNet buffer bufferLen = some (.inputTcp b len src)) ↔
    Complete selfNet buffer bufferLen ∧ (Ipv4Header.read buffer).protocol = Tcp.tcpProtocolNumber

section Acceptance
variable {selfNet : NetContext} {buffer : Memory} {bufferLen : BitVec 16}

/-- A header of 20 bytes has five words. -/
theorem headerLen_eq_iff (ihl : BitVec 8) : ihl.setWidth 16 * 4 = headerLength ↔ ihl = 5 := by
  have hsmall := ihl.isLt
  rw [← BitVec.toNat_inj, ← BitVec.toNat_inj, BitVec.toNat_mul, BitVec.toNat_setWidth]
  change ihl.toNat % 65536 * 4 % 65536 = 20 ↔ ihl.toNat = 5
  omega

/-- `header_len` of a packet. -/
def headerLenOf (buffer : Memory) : BitVec 16 :=
  ((Ipv4Header.read buffer).versionAndIhl &&& 0x0F).setWidth 16 * 4

theorem Passes.headerLen (h : Passes selfNet buffer bufferLen) :
    headerLenOf buffer = headerLength :=
  (headerLen_eq_iff (buffer 0 &&& 0x0F)).mpr h.ihl

/-- The checks of `ipv4_input` in their order, before whatever is done with the packet. -/
theorem checks_eq_some_iff {α : Type} {rest : Option α} {a : α} :
    (if bufferLen < headerLength then none
      else if (Ipv4Header.read buffer).versionAndIhl >>> 4 ≠ 4 then none
      else if ntohs (Ipv4Header.read buffer).totalLength > bufferLen then none
      else if netChecksum buffer (headerLenOf buffer) ≠ 0 then none
      else if (Ipv4Header.read buffer).dstIpv4Addr ≠ selfNet.ip then none
      else if headerLenOf buffer ≠ headerLength then none
      else rest) = some a ↔ Passes selfNet buffer bufferLen ∧ rest = some a := by
  have hlong : bufferLen < headerLength ↔ ¬ 20 ≤ bufferLen.toNat := by
    rw [BitVec.lt_def, Nat.not_le]
    rfl
  have htotal : ntohs (Ipv4Header.read buffer).totalLength > bufferLen ↔
      ¬ (totalLength buffer).toNat ≤ bufferLen.toNat := by
    rw [gt_iff_lt, BitVec.lt_def, Nat.not_le]
    rfl
  constructor
  · intro h
    split_ifs at h with hshort hversion hover hchecksum hdst hoptions
    have hheader := not_not.mp hoptions
    refine ⟨⟨not_not.mp (hlong.not.mp hshort), not_not.mp hversion,
      (headerLen_eq_iff (buffer 0 &&& 0x0F)).mp hheader, not_not.mp (htotal.not.mp hover), ?_,
      not_not.mp hdst⟩, h⟩
    rw [← hheader]
    exact not_not.mp hchecksum
  · rintro ⟨hpasses, hrest⟩
    have hversion : (Ipv4Header.read buffer).versionAndIhl >>> 4 = 4 := hpasses.version
    rw [if_neg (hlong.not.mpr (not_not.mpr hpasses.long)), if_neg (not_not.mpr hversion),
      if_neg (htotal.not.mpr (not_not.mpr hpasses.total)), hpasses.headerLen,
      if_neg (not_not.mpr hpasses.checksum), if_neg (not_not.mpr hpasses.dst),
      if_neg (not_not.mpr rfl), hrest]

/-- `ipv4_input` hands exactly those packets to the switch on the protocol that pass its
    checks. -/
theorem ipv4Input_eq_some_iff {call : Ipv4Call} :
    ipv4Input selfNet buffer bufferLen = some call ↔
      Passes selfNet buffer bufferLen ∧
        dispatchProtocol (Ipv4Header.read buffer) buffer headerLength (totalLength buffer) =
          some call := by
  refine checks_eq_some_iff.trans (and_congr_right fun hpasses => ?_)
  rw [← hpasses.headerLen]
  exact Iff.rfl

theorem dispatchProtocol_icmp_iff {header : Ipv4Header} {headerLen totalLen : BitVec 16} :
    (∃ b len, dispatchProtocol header buffer headerLen totalLen = some (.icmpv4Input b len)) ↔
      header.protocol = icmpProtocolNumber := by
  unfold dispatchProtocol
  split_ifs with hicmp htcp <;> simp [hicmp]

theorem dispatchProtocol_tcp_iff {header : Ipv4Header} {headerLen totalLen : BitVec 16} :
    (∃ b len src, dispatchProtocol header buffer headerLen totalLen =
      some (.inputTcp b len src)) ↔ header.protocol = Tcp.tcpProtocolNumber := by
  unfold dispatchProtocol
  split_ifs with hicmp htcp
  · simp [hicmp, icmpProtocolNumber, Tcp.tcpProtocolNumber]
  · simp [htcp]
  · simp [htcp]

/-- The calls of `icmpv4_input` and of `input_tcp`. -/
theorem calls_icmp_iff :
    (∃ b len, ipv4Input selfNet buffer bufferLen = some (.icmpv4Input b len)) ↔
      Passes selfNet buffer bufferLen ∧
        (Ipv4Header.read buffer).protocol = icmpProtocolNumber := by
  simp only [ipv4Input_eq_some_iff, exists_and_left, dispatchProtocol_icmp_iff]

theorem calls_tcp_iff :
    (∃ b len src, ipv4Input selfNet buffer bufferLen = some (.inputTcp b len src)) ↔
      Passes selfNet buffer bufferLen ∧
        (Ipv4Header.read buffer).protocol = Tcp.tcpProtocolNumber := by
  simp only [ipv4Input_eq_some_iff, exists_and_left, dispatchProtocol_tcp_iff]

/-- A packet is accepted exactly when it should be, unless it passes the checks, is for one of
    the two protocols, and is a fragment or shorter than its header. -/
theorem acceptsExactly_iff (selfNet : NetContext) (buffer : Memory) (bufferLen : BitVec 16) :
    AcceptsExactly selfNet buffer bufferLen ↔
      (Passes selfNet buffer bufferLen →
        (Ipv4Header.read buffer).protocol = icmpProtocolNumber ∨
          (Ipv4Header.read buffer).protocol = Tcp.tcpProtocolNumber →
        20 ≤ (totalLength buffer).toNat ∧ isFragment buffer = false) := by
  constructor
  · rintro ⟨hicmp, htcp⟩ hpasses hprotocol
    rcases hprotocol with hprotocol | hprotocol
    · obtain ⟨hcomplete, -⟩ := hicmp.mp (calls_icmp_iff.mpr ⟨hpasses, hprotocol⟩)
      exact ⟨hcomplete.header, hcomplete.whole⟩
    · obtain ⟨hcomplete, -⟩ := htcp.mp (calls_tcp_iff.mpr ⟨hpasses, hprotocol⟩)
      exact ⟨hcomplete.header, hcomplete.whole⟩
  · intro h
    constructor
    case icmp =>
        rw [calls_icmp_iff]
        constructor
        · rintro ⟨hpasses, hprotocol⟩
          obtain ⟨hheader, hwhole⟩ := h hpasses (.inl hprotocol)
          exact ⟨⟨hpasses, hheader, hwhole⟩, hprotocol⟩
        · rintro ⟨hcomplete, hprotocol⟩
          exact ⟨hcomplete.toPasses, hprotocol⟩
    case tcp =>
        rw [calls_tcp_iff]
        constructor
        · rintro ⟨hpasses, hprotocol⟩
          obtain ⟨hheader, hwhole⟩ := h hpasses (.inr hprotocol)
          exact ⟨⟨hpasses, hheader, hwhole⟩, hprotocol⟩
        · rintro ⟨hcomplete, hprotocol⟩
          exact ⟨hcomplete.toPasses, hprotocol⟩

end Acceptance

/-- The last fragment of a datagram for 10.0.0.2, from offset 24 on. -/
def lastFragment : Memory :=
  .ofBytes [0x45, 0, 0, 28, 0, 1, 0, 3, 128, 6, 0x26, 0xD6, 10, 0, 0, 1, 10, 0, 0, 2]

/-- Its eight bytes of payload are taken for the beginning of a segment. -/
theorem fragment_accepted :
    Passes ⟨⟨2, 0, 0, 0, 0, 2⟩, ⟨10, 0, 0, 2⟩⟩ lastFragment 28 ∧ isFragment lastFragment = true ∧
      (∃ b len src, ipv4Input ⟨⟨2, 0, 0, 0, 0, 2⟩, ⟨10, 0, 0, 2⟩⟩ lastFragment 28 =
        some (.inputTcp b len src)) ∧
      ¬ AcceptsExactly ⟨⟨2, 0, 0, 0, 0, 2⟩, ⟨10, 0, 0, 2⟩⟩ lastFragment 28 := by
  have hpasses : Passes ⟨⟨2, 0, 0, 0, 0, 2⟩, ⟨10, 0, 0, 2⟩⟩ lastFragment 28 := by
    decide +kernel
  have hfragment : isFragment lastFragment = true := by decide +kernel
  refine ⟨hpasses, hfragment, calls_tcp_iff.mpr ⟨hpasses, by decide⟩, ?_⟩
  intro hexactly
  have hcomplete := ((hexactly.tcp).mp (calls_tcp_iff.mpr ⟨hpasses, by decide⟩)).1
  rw [hcomplete.whole] at hfragment
  cases hfragment

end NetStack.Ipv4
