import NetStack.Lib.Agreement
import NetStack.Tcp.System
import NetStack.Utility.Proofs.Checksum

/-!
# What the receiver reads of a datagram

The datagram that `tcp_send_internal` builds, read back with the header layout of the
receive path. It holds as long as the 16-bit datagram length has not wrapped.
-/

namespace NetStack.Tcp
open NetStack.Lib NetStack.Utility

/-- The datagram length of the request does not wrap. -/
def Fits (params : TcpTransmitParams) : Prop := 20 + params.dataLen.toNat < 2 ^ 16

instance (params : TcpTransmitParams) : Decidable (Fits params) :=
  inferInstanceAs (Decidable (20 + params.dataLen.toNat < 2 ^ 16))

theorem datagramLength_toNat {params : TcpTransmitParams} (h : Fits params) :
    (datagramLength params).toNat = 20 + params.dataLen.toNat := by
  unfold Fits at h
  have hheader : headerSize.toNat = 20 := rfl
  rw [datagramLength, BitVec.toNat_add, hheader]
  omega

/-- The block before the payload, the sequence number and the checksum are written. -/
private def headerBlock (heap : Memory) (selfNet : NetContext) (params : TcpTransmitParams)
    (port : TcpPort) : Memory :=
  let m := heap.store 0 selfNet.ip.bytes
  let m := m.store 4 params.dstIpv4Addr.bytes
  let m := m.store 8 [0]
  let m := m.store 9 [tcpProtocolNumber]
  let m := m.store16 10 (htons (datagramLength params))
  let m := m.store16 12 (htons params.srcPort)
  let m := m.store16 14 (htons params.dstPort)
  let m := m.store32 20 (htonl port.ackNum)
  let m := m.store 24 [m 24 &&& 0x0F ||| 5 <<< 4]
  let m := m.store 24 [m 24 &&& 0xF0]
  let m := m.store 25 [params.control]
  let m := m.store16 26 (htons port.selfWindow)
  let m := m.store16 28 0
  m.store16 30 0

/-- The block with the payload. -/
private def withPayload (m : Memory) (params : TcpTransmitParams) : Memory :=
  match params.data with
  | some block =>
      if params.dataLen > 0 then m.store 32 (block.bytes.load 0 params.dataLen.toNat) else m
  | none => m

private theorem withPayload_byte (m : Memory) (params : TcpTransmitParams) {i : Nat}
    (h : i < 32) : withPayload m params i = m i := by
  cases hdata : params.data with
  | none => simp [withPayload, hdata]
  | some block =>
      simp only [withPayload, hdata]
      split
      · exact m.store_before _ h
      · rfl

private theorem buildDatagram_eq (heap : Memory) (selfNet : NetContext)
    (params : TcpTransmitParams) (port : TcpPort) (seqNum : BitVec 32) :
    ∃ checksum, buildDatagram heap selfNet params port seqNum =
      ((((withPayload (headerBlock heap selfNet params port) params).store32 16
        (htonl seqNum)).store16 28 checksum).move 0 12 (datagramLength params).toNat) :=
  ⟨_, rfl⟩

/-- The payload and the checksum lie outside the fields that the receiver reads. -/
private theorem buildDatagram_byte {heap : Memory} {selfNet : NetContext}
    {params : TcpTransmitParams} {port : TcpPort} {seqNum : BitVec 32} (hfits : Fits params)
    {k : Nat} (hk : k < 16) :
    buildDatagram heap selfNet params port seqNum k =
      ((headerBlock heap selfNet params port).store32 16 (htonl seqNum)) (12 + k) := by
  obtain ⟨checksum, heq⟩ := buildDatagram_eq heap selfNet params port seqNum
  have hlen := datagramLength_toNat hfits
  have hmove := fun m : Memory => m.move_inside 0 12
    (n := (datagramLength params).toNat) (k := k) (by omega)
  rw [heq, ← Nat.zero_add k, hmove, Memory.store16,
    Memory.store_outside _ _ (.inl (by omega))]
  -- a byte of the sequence number, or one of the header block
  by_cases hseq : 16 ≤ 12 + k ∧ 12 + k < 20
  · obtain ⟨j, hj⟩ : ∃ j, 12 + k = 16 + j := ⟨k - 4, by omega⟩
    have hj4 : j < 4 := by omega
    rw [Nat.zero_add, hj, Memory.store32, Memory.store32, Memory.store_inside _ _ _ (by simpa),
      Memory.store_inside _ _ _ (by simpa)]
  · rw [Nat.zero_add, Memory.store32, Memory.store32,
      Memory.store_outside _ _ (by simp only [List.length_cons, List.length_nil]; omega),
      Memory.store_outside _ _ (by simp only [List.length_cons, List.length_nil]; omega),
      withPayload_byte _ _ (by omega)]

/-- The byte that the bit-fields share, whatever was there before. -/
private theorem dataOffset_nibble (b : BitVec 8) : (b &&& 0x0F ||| 5 <<< 4) &&& 0xF0 = 0x50#8 := by
  revert b
  decide

/-- The receiver reads the fields that the sender has written. -/
theorem read_buildDatagram {heap m : Memory} {selfNet : NetContext} {params : TcpTransmitParams}
    {port : TcpPort} {seqNum : BitVec 32} (hfits : Fits params)
    (hm : ∀ k < 16, m k = buildDatagram heap selfNet params port seqNum k) :
    TcpHeader.read m =
      { srcPort := params.srcPort
        dstPort := params.dstPort
        seqNum := seqNum
        ackNum := port.ackNum
        dOffset := 5
        control := params.control
        window := port.selfWindow } := by
  generalize hM : (headerBlock heap selfNet params port).store32 16 (htonl seqNum) = M
  have hbyte : ∀ k < 16, m k = M (12 + k) := fun k hk => by
    rw [hm k hk, buildDatagram_byte hfits hk, hM]
  have h16 : ∀ off, off + 2 ≤ 16 → m.load16 off = M.load16 (12 + off) := fun off h =>
    Memory.load16_congr (hbyte off (by omega)) (hbyte (off + 1) (by omega))
  have h32 : ∀ off, off + 4 ≤ 16 → m.load32 off = M.load32 (12 + off) := fun off h =>
    Memory.load32_congr fun k hk => by rw [hbyte (off + k) (by omega), Nat.add_assoc]
  have hsrc : M.load16 12 = htons params.srcPort := by
    subst hM
    simp (disch := simp) only [headerBlock, Memory.store32, Memory.store16,
      Memory.load16_store_outside]
    exact Memory.load16_store16 _ _ _
  have hdst : M.load16 14 = htons params.dstPort := by
    subst hM
    simp (disch := simp) only [headerBlock, Memory.store32, Memory.store16,
      Memory.load16_store_outside]
    exact Memory.load16_store16 _ _ _
  have hseq : M.load32 16 = htonl seqNum := by
    subst hM
    exact Memory.load32_store32 _ _ _
  have hack : M.load32 20 = htonl port.ackNum := by
    subst hM
    simp (disch := simp) only [headerBlock, Memory.store32, Memory.store16,
      Memory.load32_store_outside]
    exact Memory.load32_store32 _ _ _
  have hoffset : M 24 = 0x50 := by
    subst hM
    simp (disch := simp) only [headerBlock, Memory.store32, Memory.store16,
      Memory.store_outside, Memory.store_singleton, dataOffset_nibble]
    rfl
  have hcontrol : M 25 = params.control := by
    subst hM
    simp (disch := simp) only [headerBlock, Memory.store32, Memory.store16,
      Memory.store_outside, Memory.store_singleton]
  have hwindow : M.load16 26 = htons port.selfWindow := by
    subst hM
    simp (disch := simp) only [headerBlock, Memory.store32, Memory.store16,
      Memory.load16_store_outside]
    exact Memory.load16_store16 _ _ _
  simp only [TcpHeader.read, h16 0 (by omega), h16 2 (by omega), h16 14 (by omega),
    h32 4 (by omega), h32 8 (by omega), hbyte 12 (by omega), hbyte 13 (by omega), hsrc, hdst, hseq,
    hack, hoffset, hcontrol, hwindow, ntohs_htons, ntohl_htonl]
  rfl

/-- The pseudo header of a datagram. -/
def psuedoHeaderBytes (src dst : Ipv4Addr) (length : BitVec 16) : List (BitVec 8) :=
  src.bytes ++ dst.bytes ++ [0, tcpProtocolNumber] ++ netBytes length

/-- Payload and sequence number come behind the pseudo header, and after the checksum field has
    been cleared. -/
private theorem fillBlock_byte (m : Memory) (params : TcpTransmitParams) (seqNum : BitVec 32)
    {i : Nat} (h : i < 16 ∨ 20 ≤ i ∧ i < 32) :
    (withPayload m params).store32 16 (htonl seqNum) i = m i := by
  rw [Memory.store32,
    Memory.store_outside _ _ (by simp only [List.length_cons, List.length_nil]; omega)]
  exact withPayload_byte m params (by omega)

private theorem load_psuedoHeader (heap : Memory) (selfNet : NetContext)
    (params : TcpTransmitParams) (port : TcpPort) :
    (headerBlock heap selfNet params port).load 0 12 =
      psuedoHeaderBytes selfNet.ip params.dstIpv4Addr (datagramLength params) := by
  unfold headerBlock
  simp only [Memory.store32, store16_htons]
  simp (disch := simp) only [Memory.store16, Memory.load_store_disjoint]
  rw [Memory.load_store_end _ _ (by simp), Memory.load_store_end _ _ (by simp),
    Memory.load_store_end _ _ (by simp), Memory.load_store_end _ _ (by simp),
    Memory.load_store_end _ _ (by simp)]
  rfl

/-- The checksum field has been cleared. -/
private theorem headerBlock_checksum (heap : Memory) (selfNet : NetContext)
    (params : TcpTransmitParams) (port : TcpPort) {k : Nat} (hk : k < 2) :
    headerBlock heap selfNet params port (28 + k) = 0 := by
  unfold headerBlock
  rw [Memory.store16, Memory.store_before _ _ (by omega), Memory.store16,
    Memory.store_inside _ 28 _ (by simpa using hk)]
  interval_cases k <;> rfl

/-- Behind its pseudo header, a datagram verifies. -/
theorem netChecksum_buildDatagram (heap : Memory) (selfNet : NetContext)
    {params : TcpTransmitParams} (port : TcpPort) (seqNum : BitVec 32)
    (hlen : 32 + params.dataLen.toNat < 2 ^ 16) :
    netChecksum (.ofBytes (psuedoHeaderBytes selfNet.ip params.dstIpv4Addr (datagramLength params) ++
      (buildDatagram heap selfNet params port seqNum).load 0 (datagramLength params).toNat))
      (datagramLength params + psuedoHeaderSize) = 0 := by
  have hfits : Fits params := by
    unfold Fits
    omega
  have hdatagram := datagramLength_toNat hfits
  have htotal : (datagramLength params + psuedoHeaderSize).toNat =
      12 + (datagramLength params).toNat := by
    rw [BitVec.toNat_add]
    change ((datagramLength params).toNat + 12) % 2 ^ 16 = _
    omega
  generalize hblock : (withPayload (headerBlock heap selfNet params port) params).store32 16
    (htonl seqNum) = block
  have hheader : ∀ k < 12, block k = headerBlock heap selfNet params port k := fun k hk =>
    hblock ▸ fillBlock_byte _ params seqNum (by omega)
  have hcleared : ∀ k < 2, block (28 + k) = 0 := by
    intro k hk
    rw [← headerBlock_checksum heap selfNet params port hk, ← hblock]
    exact fillBlock_byte _ params seqNum (by omega)
  -- the checksum field is word 14 of the block
  have hverifies : netChecksum (block.store16 28
      (htons (netChecksum block (datagramLength params + psuedoHeaderSize))))
      (datagramLength params + psuedoHeaderSize) = 0 := by
    apply netChecksum_store16 (p := 14)
    · exact ntohs_load16_eq_iff.mpr ⟨hcleared 0 (by omega), hcleared 1 (by omega)⟩
    · omega
  have hbuild : buildDatagram heap selfNet params port seqNum = (block.store16 28
      (htons (netChecksum block (datagramLength params + psuedoHeaderSize)))).move 0 12
        (datagramLength params).toNat := by
    rw [← hblock]
    rfl
  rw [hbuild, ← hverifies]
  generalize htons (netChecksum block (datagramLength params + psuedoHeaderSize)) = checksum
  apply netChecksum_of_load
  have hbytes : (block.store16 28 checksum).load 0 (12 + (datagramLength params).toNat) =
      psuedoHeaderBytes selfNet.ip params.dstIpv4Addr (datagramLength params) ++
        ((block.store16 28 checksum).move 0 12 (datagramLength params).toNat).load 0
          (datagramLength params).toNat := by
    rw [Memory.load_add, ← load_psuedoHeader heap selfNet params port]
    congr 1
    · apply Memory.load_congr
      intro k hk
      rw [Nat.zero_add, Memory.store16, Memory.store_before _ _ (by omega), hheader k hk]
    · apply Memory.load_congr
      intro k hk
      rw [Memory.move_inside _ 0 12 hk]
  rw [htotal, ← hbytes]
  have hofBytes := Memory.load_ofBytes
    ((block.store16 28 checksum).load 0 (12 + (datagramLength params).toNat))
  rwa [Memory.load_length] at hofBytes

/-- Behind the header stands the payload of the request. -/
theorem payload_buildDatagram {heap : Memory} {selfNet : NetContext} {params : TcpTransmitParams}
    {port : TcpPort} {seqNum : BitVec 32} {block : Block} (hfits : Fits params)
    (hdata : params.data = some block) {k : Nat} (hk : k < params.dataLen.toNat) :
    buildDatagram heap selfNet params port seqNum (20 + k) = block.bytes k := by
  obtain ⟨checksum, heq⟩ := buildDatagram_eq heap selfNet params port seqNum
  have hlen := datagramLength_toNat hfits
  have hsome : params.dataLen > 0 := by
    rw [gt_iff_lt, BitVec.lt_def]
    simpa using Nat.zero_lt_of_lt hk
  have hmove := fun m : Memory => m.move_inside 0 12
    (n := (datagramLength params).toNat) (k := 20 + k) (by omega)
  rw [heq, ← Nat.zero_add (20 + k), hmove, ← Nat.add_assoc, Memory.store16, Memory.store32,
    Memory.store_after _ _ (by simp only [List.length_cons, List.length_nil]; omega),
    Memory.store_after _ _ (by simp only [List.length_cons, List.length_nil]; omega)]
  simp only [withPayload, hdata, hsome, if_true]
  rw [show 12 + 20 + k = 32 + k from rfl, Memory.store_inside _ _ _ (by simpa using hk),
    Memory.load_getElem, Nat.zero_add]

/-- Without data, the bytes behind the header are those of the block. -/
theorem buildDatagram_none {heap : Memory} {selfNet : NetContext} {params : TcpTransmitParams}
    {port : TcpPort} {seqNum : BitVec 32} (hfits : Fits params) (hdata : params.data = none)
    {k : Nat} (hk : k < params.dataLen.toNat) :
    buildDatagram heap selfNet params port seqNum (20 + k) = heap (32 + k) := by
  obtain ⟨checksum, heq⟩ := buildDatagram_eq heap selfNet params port seqNum
  have hlen := datagramLength_toNat hfits
  have hmove := fun m : Memory => m.move_inside 0 12
    (n := (datagramLength params).toNat) (k := 20 + k) (by omega)
  rw [heq, ← Nat.zero_add (20 + k), hmove, ← Nat.add_assoc]
  generalize hi : 12 + 20 + k = i
  have hafter : ∀ (m : Memory) (off : Nat) (bytes : List (BitVec 8)), off + bytes.length ≤ 32 →
      m.store off bytes i = m i := fun m off bytes h => m.store_after bytes (by omega)
  simp (disch := simp [Ipv4Addr.bytes]) only [withPayload, hdata, headerBlock, Memory.store16,
    Memory.store32, hafter]

/-- The header block does not depend on what it is built in, but for the sequence number. -/
private theorem eqOn_headerBlock (heap heap' : Memory) (selfNet : NetContext)
    (params : TcpTransmitParams) (port : TcpPort) :
    Set.EqOn (headerBlock heap selfNet params port) (headerBlock heap' selfNet params port)
      {k | k < 16 ∨ 20 ≤ k ∧ k < 32} := by
  -- the store through the bit-fields reads a byte that has not been written
  have hbits : ∀ m : Memory, (m.store 24 [m 24 &&& 0x0F ||| 5 <<< 4]).store 24
      [(m.store 24 [m 24 &&& 0x0F ||| 5 <<< 4]) 24 &&& 0xF0] = m.store 24 [0x50] := by
    intro m
    rw [Memory.store_singleton, dataOffset_nibble]
    exact m.store_store 24 rfl
  unfold headerBlock
  dsimp only
  rw [hbits, hbits]
  have h := Memory.eqOn_store (Memory.eqOn_empty heap heap') 0 selfNet.ip.bytes
  have h := Memory.eqOn_store h 4 params.dstIpv4Addr.bytes
  have h := Memory.eqOn_store h 8 [0]
  have h := Memory.eqOn_store h 9 [tcpProtocolNumber]
  have h := Memory.eqOn_store16 h 10 (htons (datagramLength params))
  have h := Memory.eqOn_store16 h 12 (htons params.srcPort)
  have h := Memory.eqOn_store16 h 14 (htons params.dstPort)
  have h := Memory.eqOn_store32 h 20 (htonl port.ackNum)
  have h := Memory.eqOn_store h 24 [0x50]
  have h := Memory.eqOn_store h 25 [params.control]
  have h := Memory.eqOn_store16 h 26 (htons port.selfWindow)
  have h := Memory.eqOn_store16 h 28 0
  have h := Memory.eqOn_store16 h 30 0
  apply h.mono
  intro k hk
  simp only [Ipv4Addr.bytes_length, List.length_singleton, Set.mem_union, Set.mem_Ico,
    Set.mem_empty_iff_false, Set.mem_ofPred_eq] at hk ⊢
  omega

/-- The block before the checksum is written. -/
private theorem eqOn_withPayload {m m' : Memory} (params : TcpTransmitParams) {n : Nat}
    (hn : n ≤ 32 ∨ n ≤ 32 + params.dataLen.toNat ∧ params.data.isSome)
    (h : Set.EqOn m m' {k | k < 16 ∨ 20 ≤ k ∧ k < 32}) :
    Set.EqOn (withPayload m params) (withPayload m' params) {k | k < n ∧ ¬(16 ≤ k ∧ k < 20)} := by
  have hnone : n ≤ 32 → Set.EqOn m m' {k | k < n ∧ ¬(16 ≤ k ∧ k < 20)} := fun hn =>
    h.mono fun k hk => by
      simp only [Set.mem_ofPred_eq] at hk ⊢
      omega
  unfold withPayload
  cases hdata : params.data with
  | none => exact hnone (hn.resolve_right (by simp [hdata]))
  | some block =>
      dsimp only
      split
      case isTrue =>
          apply (Memory.eqOn_store h 32 _).mono
          intro k hk
          simp only [Memory.load_length, Set.mem_union, Set.mem_Ico, Set.mem_ofPred_eq] at hk ⊢
          omega
      case isFalse hempty =>
          have hzero : params.dataLen.toNat = 0 := by
            rw [gt_iff_lt, BitVec.lt_def] at hempty
            simpa using hempty
          exact hnone (by omega)

/-- Every byte of a datagram is written, unless it lacks its data. -/
theorem load_buildDatagram_congr (heap heap' : Memory) (selfNet : NetContext)
    {params : TcpTransmitParams} (port : TcpPort) (seqNum : BitVec 32)
    (hdata : params.data.isSome ∨ params.dataLen = 0 ∨ (datagramLength params).toNat ≤ 20) :
    (buildDatagram heap selfNet params port seqNum).load 0 (datagramLength params).toNat =
      (buildDatagram heap' selfNet params port seqNum).load 0 (datagramLength params).toNat := by
  have hbuild : ∀ heap : Memory, buildDatagram heap selfNet params port seqNum =
      (((withPayload (headerBlock heap selfNet params port) params).store32 16
        (htonl seqNum)).store16 28 (htons (netChecksum
          ((withPayload (headerBlock heap selfNet params port) params).store32 16 (htonl seqNum))
          (datagramLength params + psuedoHeaderSize)))).move 0 12 (datagramLength params).toNat :=
    fun _ => rfl
  rw [hbuild, hbuild]
  generalize hlen : datagramLength params = len at *
  have hle : len.toNat ≤ 20 + params.dataLen.toNat := by
    rw [← hlen, datagramLength, BitVec.toNat_add]
    exact Nat.mod_le _ _
  have hsum : (len + psuedoHeaderSize).toNat ≤ len.toNat + 12 := by
    rw [BitVec.toNat_add]
    exact Nat.mod_le _ _
  have hfilled : Set.EqOn
      ((withPayload (headerBlock heap selfNet params port) params).store32 16 (htonl seqNum))
      ((withPayload (headerBlock heap' selfNet params port) params).store32 16 (htonl seqNum))
      (Set.Ico 0 (12 + len.toNat)) := by
    have hn : 12 + len.toNat ≤ 32 ∨ 12 + len.toNat ≤ 32 + params.dataLen.toNat ∧
        params.data.isSome := by
      rcases hdata with hsome | hzero | hsmall
      · exact .inr ⟨by omega, hsome⟩
      · rw [hzero] at hle
        have hle : len.toNat ≤ 20 := hle
        exact .inl (by omega)
      · exact .inl (by omega)
    have h := eqOn_withPayload params hn (eqOn_headerBlock heap heap' selfNet params port)
    apply (Memory.eqOn_store32 h 16 _).mono
    intro k hk
    simp only [Set.mem_union, Set.mem_Ico, Set.mem_ofPred_eq] at hk ⊢
    omega
  -- the checksum covers bytes that agree, although its length may have wrapped
  have hchecksum := netChecksum_of_load (Memory.load_eq_of_eqOn
    (hfilled.mono (Set.Ico_subset_Ico_right
      (show 0 + (len + psuedoHeaderSize).toNat ≤ 12 + len.toNat by omega))))
  rw [hchecksum]
  refine Memory.load_eq_of_eqOn (Memory.eqOn_move (Set.EqOn.mono ?_
    (Memory.eqOn_store_of_eqOn hfilled 28 _)) 0)
  exact Set.Ico_subset_Ico_left (Nat.zero_le 12)

/-! ### A host and a peer for concrete runs -/

/-- The host on which a concrete run takes place. -/
def hostNet : NetContext := ⟨⟨0x28, 0xCD, 0xC1, 0, 0, 1⟩, ⟨192, 168, 1, 230⟩⟩

/-- Its peer. -/
def peerNet : NetContext := ⟨⟨0x28, 0xCD, 0xC1, 0, 0, 2⟩, ⟨192, 168, 1, 214⟩⟩

/-- The datagram of a peer that runs the same code, with the given header fields. -/
def peerDatagram (srcPort dstPort : BitVec 16) (seqNum ackNum : BitVec 32) (control : BitVec 8)
    (payload : List (BitVec 8)) : Memory :=
  buildDatagram (fun _ => 0) peerNet
    { dstIpv4Addr := hostNet.ip
      srcPort := srcPort
      dstPort := dstPort
      control := control
      data := some ⟨0, fun k => payload.getD k 0⟩
      dataLen := BitVec.ofNat 16 payload.length }
    { ackNum := ackNum, selfWindow := 1500 } seqNum

/-- The driver hands such a datagram from `addr` to `input_tcp`, which copies it. -/
def arrives (addr : Ipv4Addr) (srcPort dstPort : BitVec 16) (seqNum ackNum : BitVec 32)
    (control : BitVec 8) (payload : List (BitVec 8)) : Action :=
  .inputTcp (peerDatagram srcPort dstPort seqNum ackNum control payload)
    (headerSize + BitVec.ofNat 16 payload.length) addr (some fun _ => 0)

/-- An iteration of `tcp_task` in which no call fails. -/
def iterates : Action :=
  .tcpTask ⟨⟨some fun _ => 0, true⟩, fun _ _ => ⟨some fun _ => 0, true⟩, true⟩

/-- The commands and segments that bring a passive connection of the host with `addr` to
    `ESTABLISHED`, each with the iterations of `tcp_task` it needs. -/
def handshake (addr : Ipv4Addr) : List Action :=
  [.tcpListenPort 80 (some 1) (some 2) (some 3), iterates, arrives addr 5000 80 0 0 SYN [],
    iterates, iterates, arrives addr 5000 80 1 1 ACK [], iterates]

end NetStack.Tcp
