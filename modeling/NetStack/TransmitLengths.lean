import NetStack.Ipv4.Proofs.RoundTrip
import NetStack.Tcp.Proofs.SegmentEncoding
import NetStack.Udp.Encoding

/-!
# The lengths on the way out

Every layer adds its header to the length it gets, in 16 bits, and allocates a block for the sum.
No layer tests whether the sum has wrapped. A request goes through all of them with its lengths
right, and without a write beyond the end of a block, exactly if the largest sum fits: the one in
`eth_tx`, with the headers of all layers.
-/

namespace NetStack.Ipv4
open NetStack.Lib NetStack.Utility

/-- `eth_tx` keeps the length of a packet with `n` bytes behind its header, in a block with the initial
    contents `heap`: `eth_frame_len`, which is the size of the block too, is the sum; the frame stays
    in the block; and the packet in it has its length in its header and `n` bytes behind that. -/
structure FrameKept (params : Ipv4TransmitParams) (n : Nat) (heap : Memory) (frame : Eth.Frame) :
    Prop where
  length : frame.len.toNat = 14 + (20 + n)
  inside : ∀ k, frame.len.toNat ≤ k → frame.bytes k = heap k
  totalLength : (ntohs (frame.bytes.load16 (14 + 2))).toNat = 20 + n
  payload : ∀ block, params.data = some block → frame.bytes.load (14 + 20) n = block.bytes.load 0 n

/-- `internal_send_ipv4_packet` keeps the length of a packet with `n` bytes behind its header, if it
    does not give up the packet: `packet_len`, which is the size of the block too, is the sum, the
    packet stays in the block, and so it is with its frame. -/
structure PacketKept (selfNet : NetContext) (params : Ipv4TransmitParams) (n : Nat)
    (env : SendEnv) : Prop where
  length : env.malloc.isSome → (headerLength + params.dataLen).toNat = 20 + n
  inside : env.malloc.isSome →
    Memory.WritesBelow (headerLength + params.dataLen).toNat (buildPacket · params)
  frame : ∀ frame, (internalSendIpv4Packet selfNet params env).frame = some frame →
    ∀ heap, env.eth.malloc = some heap → FrameKept params n heap frame

end NetStack.Ipv4

namespace NetStack.Tcp
open NetStack.Lib NetStack.Utility

/-- `tcp_send_internal` keeps the length of a request that it transmits as `t`: the length of the
    datagram, that of its checksum and the sequence space are the sums, and IPv4 gets the length
    and keeps it. -/
structure DatagramKept (g : Globals) (params : TcpTransmitParams) (env : SendEnv)
    (t : Transmission) : Prop where
  length : (datagramLength params).toNat = 20 + params.dataLen.toNat
  checksum : (datagramLength params + psuedoHeaderSize).toNat = 20 + params.dataLen.toNat + 12
  sequence : (seqIncrement params).toNat =
    params.dataLen.toNat + if flagSyn params.control || flagFin params.control then 1 else 0
  handedOver : t.ipv4.dataLen.toNat = 20 + params.dataLen.toNat
  packet : (tcpSendInternal g params env).2 = .ok →
    ∀ env', Ipv4.PacketKept g.selfNet t.ipv4 (20 + params.dataLen.toNat) env'

/-- `tcp_send_internal` keeps the length of a request or refuses it. The datagram stays in its block,
    which has room for the pseudo header too, also when the request is refused after the copy. -/
structure RequestKept (g : Globals) (params : TcpTransmitParams) (env : SendEnv) : Prop where
  inside : env.malloc.isSome → (findParamsPort g params).isSome → ∀ port seqNum,
    Memory.WritesBelow ((datagramLength params).toNat + 12)
      (buildDatagram · g.selfNet params port seqNum)
  transmitted : ∀ t,
    transmissions (tcpSendInternal g params env).1.log = transmissions g.log ++ [t] →
    DatagramKept g params env t

/-- In every state all layers keep the length of a request of `len` bytes or refuse it. -/
def LengthsKept (len : BitVec 16) : Prop :=
  ∀ g params env, params.dataLen = len → RequestKept g params env

end NetStack.Tcp

namespace NetStack.Udp
open NetStack.Lib NetStack.Utility

/-- `udp_send_internal` keeps the length of a request, if it does not give it up: the length of the
    datagram is the sum and stands in its header, the datagram stays in its block, and IPv4 gets
    the length and keeps it. -/
structure DatagramKept (selfNet : NetContext) (params : UdpTransmitParams) (env : SendEnv) :
    Prop where
  length : env.malloc.isSome → (udpHeaderSize + params.dataLen).toNat = 8 + params.dataLen.toNat
  inside : env.malloc.isSome →
    Memory.WritesBelow (udpHeaderSize + params.dataLen).toNat (buildDatagram · params)
  lengthField : env.malloc.isSome → ∀ heap,
    (ntohs ((buildDatagram heap params).load16 4)).toNat = 8 + params.dataLen.toNat
  packet : ∀ ipv4, (udpSendInternal selfNet params env).1 = some ipv4 →
    ipv4.dataLen.toNat = 8 + params.dataLen.toNat ∧
      ∀ env', Ipv4.PacketKept selfNet ipv4 (8 + params.dataLen.toNat) env'

/-- All layers keep the length of a request of `len` bytes or refuse it. -/
def LengthsKept (len : BitVec 16) : Prop :=
  ∀ selfNet params env, params.dataLen = len → DatagramKept selfNet params env

end NetStack.Udp

/-! ### Packets -/

namespace NetStack.Ipv4
open NetStack.Lib NetStack.Utility

variable {selfNet : NetContext} {params : Ipv4TransmitParams} {env : SendEnv} {n : Nat}

/-- The header and the payload end where they should. -/
theorem writesBelow_buildPacket :
    Memory.WritesBelow (20 + params.dataLen.toNat) (buildPacket · params) := by
  intro heap k hk
  unfold buildPacket
  cases params.data with
  | none =>
    simp (disch := simp; omega) only [Memory.store16, Memory.store_after]
  | some block =>
    simp (disch := simp; omega) only [Memory.store16, Memory.store_after]

variable {frame : Eth.Frame} {heap : Memory}

theorem frameKept (hfits : 34 + params.dataLen.toNat < 2 ^ 16)
    (h : (internalSendIpv4Packet selfNet params env).frame = some frame)
    (heth : env.eth.malloc = some heap) : FrameKept params params.dataLen.toNat heap frame := by
  obtain ⟨packetHeap, dstMac, hframe⟩ := ethTx_of_frame h
  have hpacketLen : (headerLength + params.dataLen).toNat = 20 + params.dataLen.toNat :=
    toNat_packetLen (by omega)
  have hlength : frame.len.toNat = 14 + (20 + params.dataLen.toNat) := by
    rw [Eth.len_ethTx hframe, Eth.toNat_len (by omega), hpacketLen]
  -- the packet behind the header of the frame
  have hpacket : frame.bytes.load 14 (20 + params.dataLen.toNat) =
      (buildPacket packetHeap params).load 0 (20 + params.dataLen.toNat) := by
    have hcontent := Eth.load_ethTx hframe
    rw [hpacketLen, Memory.load_add] at hcontent
    simpa using List.append_inj_right hcontent (by simp)
  rw [Memory.load_add, Memory.load_add] at hpacket
  obtain ⟨hheader, hpayload⟩ := List.append_inj hpacket (by simp)
  constructor
  case length => exact hlength
  case inside =>
    intro k hk
    exact Eth.byte_ethTx heth hframe (by rw [hpacketLen]; omega)
  case totalLength =>
    have hadvance : (frame.bytes.advance 14).load 0 20 = headerBytes params := by
      rw [Memory.load_advance]
      exact hheader.trans (load_buildPacket_header packetHeap params)
    have hfield : ntohs (frame.bytes.load16 (14 + 2)) = headerLength + params.dataLen :=
      (read_headerBytes hadvance).2.1
    rw [hfield, hpacketLen]
  case payload =>
    intro block hdata
    have hwhole := load_buildPacket packetHeap hdata
    rw [Memory.load_add] at hwhole
    exact hpayload.trans (List.append_inj_right hwhole (by simp))

theorem packetKept (selfNet : NetContext) (env : SendEnv) (hlen : params.dataLen.toNat = n)
    (hfits : 34 + n < 2 ^ 16) : PacketKept selfNet params n env := by
  subst hlen
  have hpacketLen : (headerLength + params.dataLen).toNat = 20 + params.dataLen.toNat :=
    toNat_packetLen (by omega)
  constructor
  case length => exact fun _ => hpacketLen
  case inside =>
    intro _
    rw [hpacketLen]
    exact writesBelow_buildPacket
  case frame => exact fun frame hframe heap heth => frameKept hfits hframe heth

/-- A packet that can always be sent has room for the headers of both layers in its length. -/
theorem fits_of_packetKept (h : ∀ env, PacketKept selfNet params n env) : 34 + n < 2 ^ 16 := by
  let sends : SendEnv := ⟨some fun _ => 0, .ok ⟨2, 0, 0, 0, 0, 2⟩, ⟨some fun _ => 0, .ok⟩⟩
  obtain ⟨frame, hframe⟩ : ∃ frame, (internalSendIpv4Packet selfNet params sends).frame = some frame :=
    ⟨_, rfl⟩
  have hlength := ((h sends).frame frame hframe _ rfl).length
  have hbound := frame.len.isLt
  omega

end NetStack.Ipv4

/-! ### Requests of TCP -/

namespace NetStack.Tcp
open NetStack.Lib NetStack.Utility

variable {g : Globals} {params : TcpTransmitParams} {env : SendEnv} {t : Transmission}

/-- The payload ends 32 bytes behind the beginning of the block, and the move shortens that. -/
theorem writesBelow_buildDatagram (hfits : Fits params) (selfNet : NetContext) (port : TcpPort)
    (seqNum : BitVec 32) :
    Memory.WritesBelow (32 + params.dataLen.toNat)
      (buildDatagram · selfNet params port seqNum) := by
  intro heap k hk
  have hlength := datagramLength_toNat hfits
  have hshort : 0 + (datagramLength params).toNat ≤ k := by omega
  unfold buildDatagram Memory.move
  dsimp only
  rw [Memory.store_after _ _ (by simpa using hshort)]
  cases params.data with
  | none =>
    simp (disch := simp; omega) only [Memory.store16, Memory.store32, Memory.store_after]
  | some block =>
    dsimp only
    split
    · simp (disch := simp; omega) only [Memory.store16, Memory.store32, Memory.store_after]
    · simp (disch := simp; omega) only [Memory.store16, Memory.store32, Memory.store_after]

/-- What a transmission of the request hands to IPv4. -/
theorem ipv4_of_transmitted
    (ht : transmissions (tcpSendInternal g params env).1.log = transmissions g.log ++ [t]) :
    t.ipv4.dataLen = datagramLength params := by
  rcases transmissions_tcpSendInternal g params env with
    ⟨hnone, -⟩ | ⟨i, t', g₁, seqNum, -, -, hsends, -, htransmit, -⟩
  · simp [hnone] at ht
  · obtain rfl : t = t' := by simpa using ht.symm.trans htransmit
    obtain ⟨addr, heap, hipv4⟩ := hsends.ipv4
    rw [hipv4, hsends.params]

theorem lengthsKept_of_le {len : BitVec 16} (hlen : len.toNat ≤ 65481) : LengthsKept len := by
  rintro g params env rfl
  have hfits : Fits params := by
    unfold Fits
    omega
  have hlength := datagramLength_toNat hfits
  constructor
  case inside =>
    intro _ _ port seqNum
    rw [hlength, Nat.add_right_comm]
    exact writesBelow_buildDatagram hfits g.selfNet port seqNum
  case transmitted =>
    intro t ht
    have hipv4 := ipv4_of_transmitted ht
    constructor
    case length => exact hlength
    case checksum =>
      rw [BitVec.toNat_add, hlength]
      exact Nat.mod_eq_of_lt (show 20 + params.dataLen.toNat + 12 < 2 ^ 16 by omega)
    case sequence => exact toNat_seqIncrement (by omega)
    case handedOver => rw [hipv4, hlength]
    case packet =>
      intro _ env'
      exact Ipv4.packetKept g.selfNet env' (by rw [hipv4, hlength]) (by omega)

/-- An established connection sends `len` bytes. -/
theorem le_of_lengthsKept {len : BitVec 16} (h : LengthsKept len) : len.toNat ≤ 65481 := by
  let params := tcpSendParams (establishedConnection.ports 0) (some ⟨0, fun _ => 7⟩) len
  have hfind : findParamsPort establishedConnection params = some 0 := by
    change findPort establishedConnection 80 5000 peerNet.ip = some 0
    decide
  obtain ⟨t, g₁, seqNum, -, -, -, htransmit, hresult⟩ :=
    transmits_of_found (show (SendEnv.malloc ⟨some fun _ => 0, true⟩).isSome from rfl) hfind
      fun _ => by decide
  have hkept := (h establishedConnection params ⟨some fun _ => 0, true⟩ rfl).transmitted t htransmit
  have hfits := Ipv4.fits_of_packetKept (hkept.packet (hresult.mpr rfl))
  change 34 + (20 + len.toNat) < 2 ^ 16 at hfits
  omega

end NetStack.Tcp

/-! ### Requests of UDP -/

namespace NetStack.Udp
open NetStack.Lib NetStack.Utility

variable {params : UdpTransmitParams}

theorem writesBelow_buildDatagram (params : UdpTransmitParams) :
    Memory.WritesBelow (8 + params.dataLen.toNat) (buildDatagram · params) := by
  intro heap k hk
  unfold buildDatagram
  dsimp only
  cases params.data with
  | none => simp (disch := simp; omega) only [Memory.store16, Memory.store_after]
  | some block =>
    dsimp only
    split
    · simp (disch := simp; omega) only [Memory.store16, Memory.store_after]
    · simp (disch := simp; omega) only [Memory.store16, Memory.store_after]

theorem toNat_datagramLength (hfits : 8 + params.dataLen.toNat < 2 ^ 16) :
    (udpHeaderSize + params.dataLen).toNat = 8 + params.dataLen.toNat := by
  rw [BitVec.toNat_add]
  exact Nat.mod_eq_of_lt hfits

theorem lengthsKept_of_le {len : BitVec 16} (hlen : len.toNat ≤ 65493) : LengthsKept len := by
  rintro selfNet params env rfl
  have hlength : (udpHeaderSize + params.dataLen).toNat = 8 + params.dataLen.toNat :=
    toNat_datagramLength (by omega)
  constructor
  case length => exact fun _ => hlength
  case inside =>
    intro _
    rw [hlength]
    exact writesBelow_buildDatagram params
  case lengthField =>
    intro _ heap
    have hfield : ntohs ((buildDatagram heap params).load16 4) = udpHeaderSize + params.dataLen :=
      (read_headerBytes (load_buildDatagram_header heap params)).2
    rw [hfield, hlength]
  case packet =>
    intro ipv4 hipv4
    have hdataLen : ipv4.dataLen = udpHeaderSize + params.dataLen := by
      unfold udpSendInternal at hipv4
      split at hipv4
      case h_1 => cases hipv4
      case h_2 =>
        dsimp only at hipv4
        split at hipv4
        · obtain rfl := Option.some.inj hipv4
          rfl
        · cases hipv4
    have hsum : ipv4.dataLen.toNat = 8 + params.dataLen.toNat := by rw [hdataLen, hlength]
    exact ⟨hsum, fun env' => Ipv4.packetKept selfNet env' hsum (by omega)⟩

theorem le_of_lengthsKept {len : BitVec 16} (h : LengthsKept len) : len.toNat ≤ 65493 := by
  let params : UdpTransmitParams := ⟨4000, 53, ⟨10, 0, 0, 2⟩, some ⟨0, fun _ => 7⟩, len⟩
  have hkept := h ⟨⟨2, 0, 0, 0, 0, 1⟩, ⟨10, 0, 0, 1⟩⟩ params ⟨some ⟨1, fun _ => 0⟩, true⟩ rfl
  obtain ⟨-, hpacket⟩ := hkept.packet _ rfl
  have hfits := Ipv4.fits_of_packetKept hpacket
  change 34 + (8 + len.toNat) < 2 ^ 16 at hfits
  omega

end NetStack.Udp

namespace NetStack
open NetStack.Lib

/-- All layers keep the length of a request exactly if there is room for the headers of all layers in 16
    bits: 54 bytes for TCP, 42 bytes for UDP. -/
theorem transmit_lengths_iff (len : BitVec 16) :
    (Tcp.LengthsKept len ↔ len.toNat ≤ 65481) ∧ (Udp.LengthsKept len ↔ len.toNat ≤ 65493) :=
  ⟨⟨Tcp.le_of_lengthsKept, Tcp.lengthsKept_of_le⟩, ⟨Udp.le_of_lengthsKept, Udp.lengthsKept_of_le⟩⟩

/-- After a handshake the application sends 65516 bytes. -/
def sendsTooMuch : List Tcp.Action :=
  Tcp.handshake Tcp.peerNet.ip ++
    [.tcpSend false 80 5000 Tcp.peerNet.ip (some fun _ => 7) 65516 0, Tcp.iterates]

/-- 65516 bytes make a datagram of length 0 in a block of 12 bytes, of which `tcp_send_internal` has
    written byte 25; 65528 bytes make one of length 0 for `udp_send_internal`, which has written the
    length into byte 5. -/
theorem lengths_wrap :
    (∃ s, run Tcp.step (Tcp.boot Tcp.hostNet) sendsTooMuch = some s ∧
      ∃ t ∈ Tcp.transmissions s.g.log, t.accepted = true ∧ t.params.dataLen = 65516 ∧
        t.ipv4.dataLen = 0 ∧ ∃ block, t.ipv4.data = some block ∧ block.bytes 25 ≠ 0) ∧
      (∃ ipv4 block, (Udp.udpSendInternal Tcp.hostNet
          ⟨4000, 53, Tcp.peerNet.ip, some ⟨0, fun _ => 7⟩, 65528⟩
          ⟨some ⟨1, fun _ => 0xFF⟩, true⟩).1 = some ipv4 ∧
        ipv4.dataLen = 0 ∧ ipv4.data = some block ∧ block.bytes 5 ≠ 0xFF) ∧
      ¬ Tcp.LengthsKept 65516 ∧ ¬ Udp.LengthsKept 65528 := by
  refine ⟨?_, ⟨_, _, rfl, rfl, rfl, by decide⟩, ?_, ?_⟩
  · obtain ⟨s, hs, hend⟩ := run_any
      (show (run Tcp.step (Tcp.boot Tcp.hostNet) sendsTooMuch).any (fun s =>
        (Tcp.transmissions s.g.log).any fun t => t.accepted && t.params.dataLen == 65516 &&
          t.ipv4.dataLen == 0 && t.ipv4.data.any fun block => block.bytes 25 != 0) = true by
        decide +kernel)
    obtain ⟨t, ht, hwrapped⟩ := List.any_eq_true.mp hend
    simp only [Bool.and_eq_true, beq_iff_eq, Option.any_eq_true, bne_iff_ne, ne_eq] at hwrapped
    obtain ⟨⟨⟨haccepted, hlen⟩, hzero⟩, hwritten⟩ := hwrapped
    exact ⟨s, hs, t, ht, haccepted, hlen, hzero, hwritten⟩
  · exact fun h => absurd (Tcp.le_of_lengthsKept h) (by decide)
  · exact fun h => absurd (Udp.le_of_lengthsKept h) (by decide)

end NetStack
