import NetStack.Ipv4.Encoding
import NetStack.Tcp.Proofs.Datagram
import NetStack.Tcp.Proofs.Operations

/-!
# What is in a segment

The datagram that `tcp_send_internal` hands to IPv4 for a request: read with the header layout of
the receive path it has the fields of the request and of the port, behind the header stands the
payload, and behind the pseudo header the whole datagram verifies. The payload is missing if the
request has a length but no data.
-/

namespace NetStack.Tcp
open NetStack.Lib NetStack.Utility

/-- The request is for a new segment that consumes sequence space. -/
def TakesSequence (params : TcpTransmitParams) : Prop :=
  params.isRetransmission = false ∧
    (0 < params.dataLen.toNat ∨ flagSyn params.control = true ∨ flagFin params.control = true)

instance (params : TcpTransmitParams) : Decidable (TakesSequence params) :=
  inferInstanceAs (Decidable (params.isRetransmission = false ∧
    (0 < params.dataLen.toNat ∨ flagSyn params.control = true ∨ flagFin params.control = true)))

/-- The payload of a segment that is to be sent; `NULL` stands for no bytes. -/
def TcpTransmitParams.payload (params : TcpTransmitParams) : List (BitVec 8) :=
  match params.data with
  | some block => block.bytes.load 0 params.dataLen.toNat
  | none => []

/-- The packet carries the segment that `params` asks for, through `port`. -/
structure IsSegment (selfNet : NetContext) (port : TcpPort) (params : TcpTransmitParams)
    (packet : Ipv4TransmitParams) : Prop where
  src : packet.srcIpv4Addr = selfNet.ip
  dst : packet.dstIpv4Addr = params.dstIpv4Addr
  protocol : packet.protocol = 6
  length : packet.payload.length = 20 + params.dataLen.toNat
  header : TcpHeader.read (.ofBytes packet.payload) =
    { srcPort := params.srcPort
      dstPort := params.dstPort
      seqNum := if TakesSequence params then port.seqNum else params.seqNum
      ackNum := port.ackNum
      dOffset := 5
      control := params.control
      window := port.selfWindow }
  payload : packet.payload.drop 20 = params.payload
  verifies : netChecksum (.ofBytes
      (packet.srcIpv4Addr.bytes ++ packet.dstIpv4Addr.bytes ++ [0, 6] ++
        netBytes (BitVec.ofNat 16 packet.payload.length) ++ packet.payload))
    (BitVec.ofNat 16 (12 + packet.payload.length)) = 0

section Encoding
variable {g : Globals} {i : PortIdx} {params : TcpTransmitParams} {env : SendEnv}

/-- The sequence space of a request whose length leaves room for a flag. -/
theorem toNat_seqIncrement (hlen : params.dataLen.toNat + 1 < 2 ^ 16) :
    (seqIncrement params).toNat =
      params.dataLen.toNat + if flagSyn params.control || flagFin params.control then 1 else 0 := by
  rw [seqIncrement, BitVec.toNat_add]
  split
  · exact Nat.mod_eq_of_lt hlen
  · exact Nat.mod_eq_of_lt (show params.dataLen.toNat + 0 < 2 ^ 16 by omega)

/-- The sum of the lengths does not wrap, so that the code tests what it is meant to. -/
theorem consumesSequence_iff (hlen : params.dataLen.toNat + 1 < 2 ^ 16) :
    consumesSequence params = true ↔ TakesSequence params := by
  have hzero : seqIncrement params = 0 ↔ params.dataLen.toNat = 0 ∧
      ¬ (flagSyn params.control = true ∨ flagFin params.control = true) := by
    rw [← BitVec.toNat_inj, toNat_seqIncrement hlen, ← Bool.or_eq_true]
    split
    case isTrue hflag => simp [hflag]
    case isFalse hflag => simp [hflag]
  rw [consumesSequence, TakesSequence, Bool.and_eq_true, bne_iff_ne, ne_eq, hzero]
  cases params.isRetransmission with
  | true => simp
  | false =>
      simp only [Bool.not_false, and_true, true_and]
      rw [not_and_or, not_not, Nat.pos_iff_ne_zero]

/-- Behind the header stand the bytes of the request, if there is a block behind its length. -/
theorem load_payload {selfNet : NetContext} {port : TcpPort} {heap : Memory} {seqNum : BitVec 32}
    (hfits : Fits params) (hdata : params.data.isSome = true ∨ params.dataLen = 0) :
    (buildDatagram heap selfNet params port seqNum).load (0 + 20) params.dataLen.toNat =
      params.payload := by
  cases hblock : params.data with
  | none =>
      have hzero : params.dataLen = 0 := hdata.resolve_left (by simp [hblock])
      simp [TcpTransmitParams.payload, hblock, hzero, Memory.load]
  | some block =>
      rw [TcpTransmitParams.payload, hblock]
      exact Memory.load_congr fun k hk => by
        rw [Nat.zero_add, Nat.zero_add, payload_buildDatagram hfits hblock hk]

/-- The payload has the length that the request says, if there is a block behind that length. -/
theorem length_payload_iff :
    params.payload.length = params.dataLen.toNat ↔
      params.data.isSome = true ∨ params.dataLen = 0 := by
  cases hblock : params.data with
  | none =>
      rw [TcpTransmitParams.payload, hblock]
      simp only [List.length_nil, Option.isSome_none, Bool.false_eq_true, false_or]
      exact ⟨fun h => BitVec.eq_of_toNat_eq h.symm, fun h => by rw [h]; rfl⟩
  | some block => simp [TcpTransmitParams.payload, hblock]

/-- A datagram as the payload of a packet. -/
theorem isSegment_of_datagram {selfNet : NetContext} {port : TcpPort} {heap : Memory} {addr : Nat}
    {seqNum : BitVec 32} (hlen : params.dataLen.toNat ≤ 65503)
    (hdata : params.data.isSome = true ∨ params.dataLen = 0)
    (hseq : seqNum = if TakesSequence params then port.seqNum else params.seqNum) :
    IsSegment selfNet port params
      { srcIpv4Addr := selfNet.ip
        dstIpv4Addr := params.dstIpv4Addr
        protocol := tcpProtocolNumber
        data := some ⟨addr, buildDatagram heap selfNet params port seqNum⟩
        dataLen := datagramLength params } := by
  have hfits : Fits params := by
    unfold Fits
    omega
  have hdatagram := datagramLength_toNat hfits
  -- the payload of the packet is the stretch that the datagram fills
  have hpayload : ∀ k, k < 20 + params.dataLen.toNat →
      Memory.ofBytes ((buildDatagram heap selfNet params port seqNum).load 0
        (datagramLength params).toNat) k = buildDatagram heap selfNet params port seqNum k := by
    intro k hk
    rw [← hdatagram] at hk
    simp [Memory.ofBytes, Memory.load, hk]
  constructor
  case src => rfl
  case dst => rfl
  case protocol => rfl
  case length =>
      rw [← hdatagram]
      exact Memory.load_length _ _ _
  case header =>
      rw [← hseq]
      exact read_buildDatagram hfits fun k hk => hpayload k (by omega)
  case payload =>
      change ((buildDatagram heap selfNet params port seqNum).load 0
        (datagramLength params).toNat).drop 20 = _
      rw [hdatagram, Memory.load_add, List.drop_append_of_le_length (by simp),
        List.drop_of_length_le (by simp), List.nil_append]
      exact load_payload hfits hdata
  case verifies =>
      have hlength : BitVec.ofNat 16 (datagramLength params).toNat = datagramLength params :=
        BitVec.ofNat_toNat _ _
      have htotal : BitVec.ofNat 16 (12 + (datagramLength params).toNat) =
          datagramLength params + psuedoHeaderSize := by
        rw [BitVec.ofNat_add, hlength, BitVec.add_comm]
        rfl
      change netChecksum (.ofBytes (_ ++ netBytes (BitVec.ofNat 16 (Memory.load _ _ _).length) ++ _))
        (BitVec.ofNat 16 (12 + (Memory.load _ _ _).length)) = 0
      rw [Memory.load_length, hlength, htotal]
      exact netChecksum_buildDatagram heap selfNet port seqNum (by omega)

/-- What is sent after a quiet change is the segment for the state before it. -/
theorem Sends.isSegment {g₁ : Globals} {seqNum : BitVec 32} {t : Transmission}
    (ht : Sends g₁ i params seqNum t) (hquiet : Quiet g g₁)
    (hlen : params.dataLen.toNat ≤ 65503)
    (hdata : params.data.isSome = true ∨ params.dataLen = 0)
    (hseq : seqNum = if TakesSequence params then (g.ports i).seqNum else params.seqNum) :
    IsSegment g.selfNet (g.ports i) params t.ipv4 := by
  obtain ⟨addr, heap, hipv4⟩ := ht.ipv4
  obtain ⟨window, hports⟩ := hquiet.ports
  have hack : (g₁.ports i).ackNum = (g.ports i).ackNum := by rw [hports]
  have hwindow : (g₁.ports i).selfWindow = (g.ports i).selfWindow := by rw [hports]
  have hbuild := buildDatagram_congr hack hwindow heap g.selfNet params seqNum
  rw [hipv4, ht.params, ht.seqNum, hquiet.selfNet, hbuild]
  exact isSegment_of_datagram hlen hdata hseq

/-- A request is dropped before it is transmitted, for one of three reasons, or it is transmitted
    once, and what IPv4 says to that is the result. -/
theorem transmissions_tcpSendInternal (g : Globals) (params : TcpTransmitParams) (env : SendEnv) :
    (transmissions (tcpSendInternal g params env).1.log = transmissions g.log ∧
        (env.malloc = none ∨ findParamsPort g params = none ∨
          ∃ i, findParamsPort g params = some i ∧ consumesSequence params = true ∧
            findEmptyUnacked (g.ports i) = none)) ∨
      ∃ i t g₁ seqNum, findParamsPort g params = some i ∧ Quiet g g₁ ∧ Sends g₁ i params seqNum t ∧
        seqNum = (if consumesSequence params then (g.ports i).seqNum else params.seqNum) ∧
        transmissions (tcpSendInternal g params env).1.log = transmissions g.log ++ [t] ∧
        ((tcpSendInternal g params env).2 = .ok ↔ env.ipv4Accepts = true) := by
  have hspec := tcpSendInternal_spec env g params
  generalize tcpSendInternal g params env = r at hspec ⊢
  obtain ⟨g', result⟩ := r
  cases hspec with
  | dropped hwhy _ hquiet => exact .inl ⟨hquiet.log.transmissions_eq, hwhy⟩
  | @plain i t g₁ _ _ _ hfind hplain hr hquiet ht hafter =>
      refine .inr ⟨i, t, g₁, params.seqNum, hfind, hquiet, ht, by simp [hplain], ?_, hr⟩
      rw [hafter.log.transmissions_eq, transmissions_emit, hquiet.log.transmissions_eq]
  | @recorded i j now t g₁ _ _ _ hfind hconsumes _ hr hquiet ht hafter =>
      have hseq : (g₁.ports i).seqNum = (g.ports i).seqNum := by
        obtain ⟨window, hports⟩ := hquiet.ports
        rw [hports]
      refine .inr ⟨i, t, g₁, _, hfind, hquiet, ht, by simp [hconsumes, hseq], ?_, hr⟩
      rw [hafter.log.transmissions_eq, transmissions_emit]
      change transmissions g₁.log ++ [t] = _
      rw [hquiet.log.transmissions_eq]

/-- A request whose block, port and entry are found is not dropped. -/
theorem transmits_of_found (hmalloc : env.malloc.isSome) (hfind : findParamsPort g params = some i)
    (hentry : consumesSequence params = true → (findEmptyUnacked (g.ports i)).isSome) :
    ∃ t g₁ seqNum, Quiet g g₁ ∧ Sends g₁ i params seqNum t ∧
      seqNum = (if consumesSequence params then (g.ports i).seqNum else params.seqNum) ∧
      transmissions (tcpSendInternal g params env).1.log = transmissions g.log ++ [t] ∧
      ((tcpSendInternal g params env).2 = .ok ↔ env.ipv4Accepts = true) := by
  rcases transmissions_tcpSendInternal g params env with
    ⟨-, hnone | hnone | ⟨k, hk, hconsumes, hnone⟩⟩ | ⟨k, t, g₁, seqNum, hk, hsent⟩
  · simp [hnone] at hmalloc
  · cases hnone.symm.trans hfind
  · obtain rfl := Option.some.inj (hk.symm.trans hfind)
    have hsome := hentry hconsumes
    simp [hnone] at hsome
  · obtain rfl := Option.some.inj (hk.symm.trans hfind)
    exact ⟨t, g₁, seqNum, hsent⟩

/-- A request whose block, port and entry are found goes out as the segment that it asks for,
    exactly if there is a block behind its length. -/
theorem segment_well_formed_iff (hmalloc : env.malloc.isSome)
    (hfind : findParamsPort g params = some i)
    (hentry : TakesSequence params → (findEmptyUnacked (g.ports i)).isSome)
    (hlen : params.dataLen.toNat ≤ 65503) :
    (∃ t, transmissions (tcpSendInternal g params env).1.log = transmissions g.log ++ [t] ∧
        IsSegment g.selfNet (g.ports i) params t.ipv4) ↔
      params.data.isSome = true ∨ params.dataLen = 0 := by
  have htakes : consumesSequence params = true ↔ TakesSequence params :=
    consumesSequence_iff (by omega)
  constructor
  · rintro ⟨t, -, hsegment⟩
    rw [← length_payload_iff, ← hsegment.payload, List.length_drop, hsegment.length]
    exact Nat.add_sub_cancel_left _ _
  · intro hdata
    obtain ⟨t, g₁, seqNum, hquiet, ht, hseq, htransmit, -⟩ :=
      transmits_of_found hmalloc hfind fun hconsumes => hentry (htakes.mp hconsumes)
    refine ⟨t, htransmit, ht.isSegment hquiet hlen hdata ?_⟩
    simpa only [htakes] using hseq

end Encoding

/-- An established connection of the host with its peer, in port 0. -/
def establishedConnection : Globals :=
  Globals.setPort { selfNet := hostNet } 0
    { selfPortNum := 80
      otherPortNum := 5000
      otherIpv4Addr := peerNet.ip
      state := .established
      ackNum := 17
      seqNum := 42
      selfWindow := 1500 }

/-- Three bytes for the peer. -/
def threeBytes : TcpTransmitParams where
  dstIpv4Addr := peerNet.ip
  srcPort := 80
  dstPort := 5000
  control := ACK + PSH
  data := some ⟨0, .ofBytes [1, 2, 3]⟩
  dataLen := 3

/-- They are sent in a segment of odd length. -/
theorem three_bytes_well_formed :
    ∃ t, transmissions (tcpSendInternal establishedConnection threeBytes
        ⟨some fun _ => 0xFF, true⟩).1.log = transmissions establishedConnection.log ++ [t] ∧
      IsSegment hostNet (establishedConnection.ports 0) threeBytes t.ipv4 :=
  (segment_well_formed_iff (by rfl) (by decide) (fun _ => by decide) (by decide)).mpr (.inl rfl)

/-- The length of three bytes without the bytes: `tcp_send` called with `NULL` and 3. -/
def missingBytes : TcpTransmitParams := { threeBytes with data := none }

/-- What lay on the heap is sent in their place. -/
theorem missing_bytes_sent :
    ∃ t, transmissions (tcpSendInternal establishedConnection missingBytes
        ⟨some fun _ => 0xFF, true⟩).1.log = transmissions establishedConnection.log ++ [t] ∧
      t.ipv4.payload.drop 20 = [0xFF, 0xFF, 0xFF] ∧
      ¬ IsSegment hostNet (establishedConnection.ports 0) missingBytes t.ipv4 := by
  obtain ⟨t, -, -, -, -, -, htransmit, -⟩ :=
    transmits_of_found (show (SendEnv.malloc ⟨some fun _ => 0xFF, true⟩).isSome from rfl)
      (show findParamsPort establishedConnection missingBytes = some 0 by decide) fun _ => by decide
  have hpayload : (transmissions (tcpSendInternal establishedConnection missingBytes
      ⟨some fun _ => 0xFF, true⟩).1.log).map (·.ipv4.payload.drop 20) = [[0xFF, 0xFF, 0xFF]] := by
    decide +kernel
  rw [htransmit] at hpayload
  have hbytes : t.ipv4.payload.drop 20 = [0xFF, 0xFF, 0xFF] := by
    simpa [establishedConnection, transmissions] using hpayload
  refine ⟨t, htransmit, hbytes, fun hsegment => ?_⟩
  have hnone : t.ipv4.payload.drop 20 = [] := hsegment.payload
  rw [hbytes] at hnone
  cases hnone

end NetStack.Tcp
