import NetStack.Udp.Datagram

/-!
# What is in a UDP datagram

The bytes that `udp_send_internal` hands to IPv4, and the overlay of `struct udp_header_t` on them.
-/

namespace NetStack.Udp
open NetStack.Lib NetStack.Utility

/-- The payload of a datagram that is to be sent; `NULL` stands for no bytes. -/
def UdpTransmitParams.payload (params : UdpTransmitParams) : List (BitVec 8) :=
  match params.data with
  | some block => block.bytes.load 0 params.dataLen.toNat
  | none => []

/-- The header of a datagram. -/
def headerBytes (params : UdpTransmitParams) : List (BitVec 8) :=
  netBytes params.srcPort ++ netBytes params.dstPort ++
    netBytes (udpHeaderSize + params.dataLen) ++ [0#8, 0]

@[simp] theorem headerBytes_length (params : UdpTransmitParams) :
    (headerBytes params).length = 8 := rfl

/-- The header in its block. -/
def headerBlock (heap : Memory) (params : UdpTransmitParams) : Memory :=
  let m := heap.store16 0 (htons params.srcPort)
  let m := m.store16 2 (htons params.dstPort)
  let m := m.store16 4 (htons (udpHeaderSize + params.dataLen))
  m.store16 6 0

theorem load_headerBlock (heap : Memory) (params : UdpTransmitParams) :
    (headerBlock heap params).load 0 8 = headerBytes params := by
  have hzero : ∀ m : Memory, m.store16 6 0 = m.store 6 [0#8, 0] := fun _ => rfl
  unfold headerBlock
  dsimp only
  rw [hzero, store16_htons, store16_htons, store16_htons]
  rw [Memory.load_store_end _ _ (by simp), Memory.load_store_end _ _ (by simp),
    Memory.load_store_end _ _ (by simp), Memory.load_store_end _ _ (by simp)]
  rfl

variable {params : UdpTransmitParams}

/-- A datagram begins with its header, whatever its data is. -/
theorem load_buildDatagram_header (heap : Memory) (params : UdpTransmitParams) :
    (buildDatagram heap params).load 0 8 = headerBytes params := by
  unfold buildDatagram
  rw [← load_headerBlock heap params]
  dsimp only
  split
  · split
    · exact Memory.load_store_disjoint _ _ (.inl (Nat.le_refl 8))
    · rfl
  · rfl

/-- A datagram holds its header and the payload. -/
theorem load_buildDatagram (heap : Memory) (hdata : params.data.isSome ∨ params.dataLen = 0) :
    (buildDatagram heap params).load 0 (8 + params.dataLen.toNat) =
      headerBytes params ++ params.payload := by
  rw [Memory.load_add, load_buildDatagram_header, UdpTransmitParams.payload]
  congr 1
  cases hblock : params.data with
  | none =>
      have hempty : params.dataLen = 0 := by simpa [hblock] using hdata
      rw [hempty]
      rfl
  | some block =>
      by_cases hpos : params.dataLen > 0
      · have hdatagram : buildDatagram heap params =
            (headerBlock heap params).store 8 (block.bytes.load 0 params.dataLen.toNat) := by
          simp only [buildDatagram, hblock]
          rw [if_pos hpos]
          rfl
        have hstored := Memory.load_store (headerBlock heap params) 8
          (block.bytes.load 0 params.dataLen.toNat)
        rw [Memory.load_length] at hstored
        rw [hdatagram]
        exact hstored
      · have hempty : params.dataLen.toNat = 0 := by
          rw [gt_iff_lt, BitVec.lt_def] at hpos
          simpa using hpos
        rw [hempty]
        rfl

/-- The overlay reads the header back. -/
theorem read_headerBytes {buffer : Memory} (h : buffer.load 0 8 = headerBytes params) :
    ntohs (UdpHeader.read buffer).dstPort = params.dstPort ∧
      ntohs (UdpHeader.read buffer).length = udpHeaderSize + params.dataLen := by
  have hbyte : ∀ k (hk : k < 8), buffer k = (headerBytes params)[k] := by
    intro k hk
    simpa using buffer.byte_of_load h (k := k) hk
  constructor
  · exact ntohs_load16_eq_iff.mpr ⟨hbyte 2 (by decide), hbyte 3 (by decide)⟩
  · exact ntohs_load16_eq_iff.mpr ⟨hbyte 4 (by decide), hbyte 5 (by decide)⟩

end NetStack.Udp
