import NetStack.Tcp.Proofs.Requests

/-!
# The stack accepts what it sends

A segment that one instance transmits and another one receives on a synchronized port, in
sequence, passes the check for the ACK flag exactly when it is not the bare FIN of
`tcp_close_port_internal`. Without close commands every transmitted segment passes.
-/

namespace NetStack.Tcp
open NetStack.Lib

/-- The states in which both sequence numbers are known. -/
def TcpState.synchronized : TcpState → Bool
  | .closed | .listen | .synSent => false
  | .synReceived | .established | .finWait1 | .closeWait | .finWait2 | .lastAck | .timeWait => true

/-- The segment is what the network delivers of the transmission. -/
structure Delivers (t : Transmission) (seg : Segment) : Prop where
  length : seg.length = t.ipv4.dataLen
  bytes : ∀ block, t.ipv4.data = some block →
    ∀ k < seg.length.toNat, seg.buffer k = block.bytes k
  source : seg.srcIpv4Addr = t.ipv4.srcIpv4Addr

/-- Port `i` of the receiver is the one the transmission is meant for, synchronized, and
    expects its sequence number. -/
structure Expects (g : Globals) (i : PortIdx) (t : Transmission) : Prop where
  find : findPort g t.params.dstPort t.params.srcPort t.ipv4.srcIpv4Addr = some i
  state : (g.ports i).state.synchronized = true
  ackNum : (g.ports i).ackNum = t.seqNum

/-- Every well-formed transmission has a delivery. -/
theorem Transmission.WellFormed.delivered {Q : TcpTransmitParams → Prop} {t : Transmission}
    (h : t.WellFormed Q) : ∃ seg, Delivers t seg := by
  obtain ⟨addr, heap, selfNet, port, hdata, -⟩ := h.ipv4
  refine ⟨⟨buildDatagram heap selfNet t.params port t.seqNum, t.ipv4.dataLen,
    t.ipv4.srcIpv4Addr⟩, rfl, fun block hblock k _ => ?_, rfl⟩
  obtain rfl := Option.some.inj (hdata.symm.trans hblock)
  rfl

/-- The requests that carry the ACK flag, or start a connection. -/
def Acknowledging (params : TcpTransmitParams) : Prop :=
  Request params ∧ params.control ≠ FIN ∧ Fits params

theorem Request.ack_iff {params : TcpTransmitParams} (h : Request params)
    (hsyn : params.control ≠ SYN) :
    flagAck params.control = true ↔ params.control ≠ FIN := by
  cases h <;> simp_all [tcpSendParams, synRequest, replyParams, finRequest] <;> decide

/-- Nothing that the component sends carries the RST flag. -/
theorem Request.rst {params : TcpTransmitParams} (h : Request params) :
    flagRst params.control = false := by
  cases h <;> simp only [tcpSendParams, synRequest, replyParams, finRequest] <;> decide

theorem Delivers.header {t : Transmission} {seg : Segment} {Q : TcpTransmitParams → Prop}
    (ht : t.WellFormed Q) (hfits : Fits t.params) (h : Delivers t seg) :
    seg.header.srcPort = t.params.srcPort ∧ seg.header.dstPort = t.params.dstPort ∧
      seg.header.seqNum = t.seqNum ∧ seg.header.dOffset = 5 ∧
      seg.header.control = t.params.control := by
  obtain ⟨addr, heap, selfNet, port, hdata, hlen⟩ := ht.ipv4
  have hlength : seg.length.toNat = 20 + t.params.dataLen.toNat := by
    rw [h.length, hlen, datagramLength_toNat hfits]
  have hread := read_buildDatagram hfits fun k (hk : k < 16) =>
    h.bytes _ hdata k (by omega)
  simp [Segment.header, hread]

/-- The verdict of the receiver on a delivered segment. -/
theorem checkSegment_delivered_iff {t : Transmission} {seg : Segment} {g : Globals} {i : PortIdx}
    {Q : TcpTransmitParams → Prop} (hQ : ∀ params, Q params → Request params)
    (ht : t.WellFormed Q) (hfits : Fits t.params) (hsyn : t.params.control ≠ SYN)
    (h : Delivers t seg) (hexp : Expects g i t) :
    checkSegment g seg ≠ .discard .malformedNoAck ↔ t.params.control ≠ FIN := by
  obtain ⟨hsrc, hdst, hseq, hoffset, hcontrol⟩ := h.header ht hfits
  obtain ⟨params, hparams, hpc, -, -⟩ := ht.request
  have hrequest := hQ params hparams
  have hfind : findSegmentPort g seg = some i := by
    simp [findSegmentPort, hsrc, hdst, h.source, hexp.find]
  have hlen : ¬ seg.header.headerLength < headerSize := by
    simp [TcpHeader.headerLength, hoffset, headerSize]
  have hclosed : (g.ports i).state ≠ .closed := by
    intro hstate
    have := hexp.state
    simp [hstate, TcpState.synchronized] at this
  have hrst : seg.rst = false := by
    rw [Segment.rst, hcontrol, ← hpc]
    exact hrequest.rst
  have hsequence : outOfSequence (g.ports i) seg = false := by
    simp [outOfSequence, hseq, hexp.ackNum]
  have hack : seg.ack = true ↔ t.params.control ≠ FIN := by
    rw [Segment.ack, hcontrol, ← hpc]
    exact hrequest.ack_iff (hpc ▸ hsyn)
  have hsynflag : t.params.control = FIN → seg.syn = false := by
    intro hfin
    rw [Segment.syn, hcontrol, hfin]
    decide
  simp only [checkSegment, hlen, if_false, hfind, hclosed, hrst, Bool.false_eq_true, hsequence]
  by_cases hfin : t.params.control = FIN
  · have hno : seg.ack = false := by simpa [hfin] using hack.not
    simp [hno, hsynflag hfin, hfin]
  · have hyes : seg.ack = true := hack.mpr hfin
    simp [hyes, hfin]

/-- The step is no close command that finds its port, and no payload is too long for a
    datagram. -/
def withoutClose (s : System) : Action → Bool
  | .tcpTask _ =>
      match (selectInput s.g).2 with
      | .cmd (.close self other addr) => (findPort s.g self other addr).isNone
      | _ => true
  | .tcpSend _ src dst addr _ len _ =>
      (findPort s.g src dst addr).isNone || 20 + len.toNat < 2 ^ 16
  | _ => true

theorem acknowledging_of_builds {s : System} {a : Action} (h : withoutClose s a = true)
    {params : TcpTransmitParams} (hb : Builds s a params) : Acknowledging params := by
  refine ⟨hb.request, ?_⟩
  cases hb with
  | data ha hfind =>
      subst ha
      refine ⟨by simp [tcpSendParams]; decide, ?_⟩
      simpa [withoutClose, hfind, Fits, tcpSendParams] using h
  | syn _ => exact ⟨by simp [synRequest]; decide, by simp [Fits, synRequest]⟩
  | synAck _ _ => exact ⟨by simp [replyParams]; decide, by simp [Fits, replyParams]⟩
  | ack _ => exact ⟨by simp [replyParams]; decide, by simp [Fits, replyParams]⟩
  | finAck _ _ => exact ⟨by simp [replyParams]; decide, by simp [Fits, replyParams]⟩
  | fin hcmd hfind =>
      obtain ⟨⟨env, rfl⟩, hin⟩ := hcmd
      simp [withoutClose, hin, hfind] at h

/-- In every run without a close command that finds its port, a matching synchronized port of
    another instance that expects the sequence number accepts every transmitted segment but
    the SYN of an active open: it is not discarded for want of the ACK flag. -/
theorem transmitted_not_malformed {net : NetContext} {as : List Action} {s : System}
    (hrun : run step (boot net) as = some s) (hg : Guarded step (withoutClose · ·) (boot net) as)
    {t : Transmission} (ht : .transmit t ∈ s.g.log) (hsyn : t.params.control ≠ SYN)
    {g : Globals} {i : PortIdx} {seg : Segment} (hdelivers : Delivers t seg)
    (hexpects : Expects g i t) :
    checkSegment g seg ≠ .discard .malformedNoAck := by
  have hreqs : Requests Acknowledging s.g :=
    requests_of_run (fun _ h => h.1) (fun _ _ hc _ hb => acknowledging_of_builds hc hb) hg hrun
  have hwell := hreqs.transmits t ht
  obtain ⟨params, ⟨-, hfin, hfits⟩, hcontrol, hlen, -⟩ := hwell.request
  refine (checkSegment_delivered_iff (fun _ h => h.1) hwell ?_ hsyn hdelivers hexpects).mpr
    (hcontrol ▸ hfin)
  simpa [Fits, hlen] using hfits

/-- The peer of the host's connection reaches `ESTABLISHED`. -/
def peerConnects : List Action :=
  [.tcpConnectPort 5000 80 hostNet.ip (some 1) (some 2) (some 3), iterates, iterates,
    arrives hostNet.ip 80 5000 0 1 (SYN + ACK) [], iterates]

/-- The host has transmitted a segment with the control byte to the connection of
    `peerConnects`, the first after the handshake. -/
def sentFirst (control : BitVec 8) (s : System) : Bool :=
  (transmissions s.g.log).any fun t =>
    t.params.control == control && t.params.dataLen.toNat < 100 && t.seqNum == 1 &&
      t.params.srcPort == 80 && t.params.dstPort == 5000 && t.ipv4.srcIpv4Addr == hostNet.ip

/-- The peer expects that segment. -/
theorem peer_expects {control : BitVec 8} {s : System} (h : sentFirst control s = true) :
    ∃ t s', .transmit t ∈ s.g.log ∧ t.params.control = control ∧ Fits t.params ∧
      run step (boot peerNet) peerConnects = some s' ∧ Expects s'.g 0 t := by
  obtain ⟨s', hs', hport⟩ := run_any
    (show (run step (boot peerNet) peerConnects).any (fun s =>
      findPort s.g 5000 80 hostNet.ip == some 0 && (s.g.ports 0).state.synchronized &&
      (s.g.ports 0).ackNum == 1) = true by decide +kernel)
  obtain ⟨t, ht, hfields⟩ := List.any_eq_true.mp h
  simp only [Bool.and_eq_true, beq_iff_eq, decide_eq_true_eq] at hfields hport
  obtain ⟨⟨⟨⟨⟨hcontrol, hlen⟩, hseq⟩, hsrc⟩, hdst⟩, hip⟩ := hfields
  obtain ⟨⟨hfind, hstate⟩, hack⟩ := hport
  refine ⟨t, s', mem_transmissions.mp ht, hcontrol, ?_, hs', ?_, hstate, hack.trans hseq.symm⟩
  · unfold Fits
    omega
  · rw [hdst, hsrc, hip]
    exact hfind

/-- The host answers a handshake and sends three bytes. -/
def hostSends : List Action :=
  handshake peerNet.ip ++
    [.tcpSend false 80 5000 peerNet.ip (some fun _ => 7) 3 portMaxDelay, iterates]

/-- The peer takes the data. -/
theorem sent_data_not_malformed :
    ∃ s t s' seg, run step (boot hostNet) hostSends = some s ∧ .transmit t ∈ s.g.log ∧
      t.params.control = ACK + PSH ∧ run step (boot peerNet) peerConnects = some s' ∧
      Delivers t seg ∧ Expects s'.g 0 t ∧ checkSegment s'.g seg ≠ .discard .malformedNoAck := by
  obtain ⟨s, hs, hsent⟩ := run_any
    (show (run step (boot hostNet) hostSends).any (sentFirst (ACK + PSH)) = true by
      decide +kernel)
  obtain ⟨t, s', ht, hcontrol, -, hs', hexp⟩ := peer_expects hsent
  obtain ⟨seg, hseg⟩ := ((requests_of_run_any hs).transmits t ht).delivered
  exact ⟨s, t, s', seg, hs, ht, hcontrol, hs', hseg, hexp,
    transmitted_not_malformed hs (by decide +kernel) ht (by rw [hcontrol]; decide) hseg hexp⟩

/-- The host answers a handshake and closes; the FIN goes out. -/
def hostCloses : List Action :=
  handshake peerNet.ip ++ [.tcpClosePort 80 5000 peerNet.ip, iterates, iterates]

/-- The FIN that the host sends on a close is malformed for its peer. -/
theorem closing_fin_malformed :
    ∃ s t s' seg, run step (boot hostNet) hostCloses = some s ∧ .transmit t ∈ s.g.log ∧
      t.params.control ≠ SYN ∧ run step (boot peerNet) peerConnects = some s' ∧
      Delivers t seg ∧ Expects s'.g 0 t ∧ checkSegment s'.g seg = .discard .malformedNoAck := by
  obtain ⟨s, hs, hsent⟩ := run_any
    (show (run step (boot hostNet) hostCloses).any (sentFirst FIN) = true by decide +kernel)
  obtain ⟨t, s', ht, hcontrol, hfits, hs', hexp⟩ := peer_expects hsent
  have hwell := (requests_of_run_any hs).transmits t ht
  obtain ⟨seg, hseg⟩ := hwell.delivered
  have hsyn : t.params.control ≠ SYN := by rw [hcontrol]; decide
  refine ⟨s, t, s', seg, hs, ht, hsyn, hs', hseg, hexp, ?_⟩
  by_contra hne
  exact (checkSegment_delivered_iff (fun _ h => h) hwell hfits hsyn hseg hexp).mp hne hcontrol

end NetStack.Tcp
