import NetStack.Lib.Reading
import NetStack.Tcp.Proofs.Delivery
import NetStack.Tcp.Proofs.Rejections

/-!
# What the receive path reads of a segment

`input_tcp` copies a segment and reads just that. `input_tcp_internal` overlays a header on the
copy without asking whether the segment has one: it reads bytes that a short segment does not
have, and where the header says that it is longer than the segment, the length of the payload
wraps and is delivered and acknowledged so. It stays inside the segment exactly when the header
does, or is found unusable by the bytes that are there.
-/

namespace NetStack.Tcp
open NetStack.Lib NetStack.Utility

/-- `input_tcp`, byte by byte. -/
def readInputTcp (g : Globals) (length : BitVec 16) (srcIpv4Addr : Ipv4Addr)
    (malloc : Option Memory) : Reading (Globals × EspErr) :=
  match malloc with
  | none => return (g, .noMem)
  | some heap => do
      let bytes ← Reading.load 0 length.toNat
      match queueSend inputQueueLength g.inputQueue ⟨heap.store 0 bytes, length, srcIpv4Addr⟩ with
      | some queue =>
          return ({ g with
            inputQueue := queue
            queueSet := setPost queueSetLength g.queueSet .inputQueue }, .ok)
      | none => return (g, .noMem)

/-- `input_tcp_internal` on a segment that has passed its checks. Every field of the header is
    read where it is needed first; what follows works on the fields that have been read, and
    hands the pointer to the segment on. -/
def readAccepted (g : Globals) (i : PortIdx) (seg : Segment) (control : BitVec 8)
    (receivedAckNum : BitVec 32) : Reading (Outcome Unit) :=
  let released := if flagAck control then processAck g i (ntohl receivedAckNum) else g
  match acknowledgeData released i seg with
  | .done g' () => do
      let window ← Reading.load16 14
      return inputState (g'.setPort i { g'.ports i with otherWindow := ntohs window }) i seg
  | .blocked g' on => return .blocked g' on
  | .undefined => return .undefined

/-- `input_tcp_internal` from the state of the port on. -/
def readPort (g : Globals) (i : PortIdx) (seg : Segment) : Reading (Outcome Unit) :=
  if (g.ports i).state = .closed then return .done (g.warn .closedPort) ()
  else do
    let receivedSeqNum ← Reading.load32 4
    let receivedAckNum ← Reading.load32 8
    let control ← Reading.load8 13
    if flagRst control then return .done (tcpResetPort (g.warn .forciblyClosed) i) ()
    else if (g.ports i).state != .listen && (g.ports i).state != .synSent &&
        ntohl receivedSeqNum != (g.ports i).ackNum then
      return .done (g.warn .unexpectedSequence) ()
    else if flagAck control = false ∧ flagSyn control = false then
      return .done (g.warn .malformedNoAck) ()
    else readAccepted g i seg control receivedAckNum

/-- `input_tcp_internal`, byte by byte. -/
def readInputTcpInternal (g : Globals) (seg : Segment) : Reading (Outcome Unit) := do
  let offset ← Reading.load8 12
  if (offset >>> 4).setWidth 16 * 4 < headerSize then
    return .done (g.warn .invalidHeaderLength) ()
  else do
    let dstPort ← Reading.load16 2
    let srcPort ← Reading.load16 0
    match findPort g (ntohs dstPort) (ntohs srcPort) seg.srcIpv4Addr with
    | some i => readPort g i seg
    | none => do
        let control ← Reading.load8 13
        if flagSyn control then
          match findListeningPort g (ntohs dstPort) with
          | some i => readPort g i seg
          | none => return .done (g.warn .noPortFound) ()
        else return .done (g.warn .noPortFound) ()

/-- A call of `on_receive` for the segment gets the bytes from `4 * dOffset` up to its end. -/
def DeliversRest (seg : Segment) : Event → Prop
  | .onReceive _ _ buffer offset dataLen =>
      buffer = seg.buffer ∧ offset.toNat = 4 * seg.header.dOffset.toNat ∧
        offset.toNat + dataLen.toNat = seg.length.toNat
  | .warn _ | .malloc _ | .free _ | .queued _ _ _ | .transmit _ | .acked _ _ _ | .reset _ _
  | .onConnect _ _ | .onDisconnect _ _ => True

/-- The number acknowledges no more than the payload of the segment and one. -/
def AcksPayload (seg : Segment) (ackNum : BitVec 32) : Prop :=
  ∃ k ≤ seg.length.toNat - 4 * seg.header.dOffset.toNat + 1,
    ackNum = seg.header.seqNum + BitVec.ofNat 32 k

/-- What has been delivered and acknowledged from `g` to `g'` is bytes of the segment. -/
structure Within (seg : Segment) (g g' : Globals) : Prop where
  log : ∃ l, g'.log = g.log ++ l ∧ ∀ e ∈ l, DeliversRest seg e
  ackNum : ∀ i, (g'.ports i).ackNum = (g.ports i).ackNum ∨ AcksPayload seg (g'.ports i).ackNum

/-- Whatever the state, TCP reads only bytes of the segment, and delivers and acknowledges only
    bytes of it. -/
structure StaysInSegment (seg : Segment) : Prop where
  copies : ∀ g malloc,
    (readInputTcp g seg.length seg.srcIpv4Addr malloc).Inside seg.length.toNat seg.buffer
  reads : ∀ g, (readInputTcpInternal g seg).Inside seg.length.toNat seg.buffer
  within : ∀ g g', (inputTcpInternal g seg).final? = some g' → Within seg g g'

/-- The segment is long enough for its data offset, and, if this is one of a header, for the
    control byte and for the whole header unless the control byte has the segment dropped. -/
def HoldsHeader (seg : Segment) : Prop :=
  12 < seg.length.toNat ∧
    (seg.header.dOffset.toNat < 5 ∨
      13 < seg.length.toNat ∧
        (seg.rst = true ∨ seg.ack = false ∧ seg.syn = false ∨
          4 * seg.header.dOffset.toNat ≤ seg.length.toNat))

instance (seg : Segment) : Decidable (HoldsHeader seg) := inferInstanceAs (Decidable (_ ∧ _))

/-! ### The reads are those of the code -/

theorem run_readInputTcp (g : Globals) (buffer : Memory) (length : BitVec 16)
    (srcIpv4Addr : Ipv4Addr) (malloc : Option Memory) :
    (readInputTcp g length srcIpv4Addr malloc).run buffer =
      inputTcp g buffer length srcIpv4Addr malloc := by
  unfold readInputTcp inputTcp
  cases malloc with
  | none => rfl
  | some heap =>
      simp only [Reading.run_bind, Reading.run_load]
      cases queueSend inputQueueLength g.inputQueue
        ⟨heap.store 0 (buffer.load 0 length.toNat), length, srcIpv4Addr⟩ <;> rfl

section Reads
variable (g : Globals) (i : PortIdx) (seg : Segment)

theorem run_readAccepted :
    (readAccepted g i seg (seg.buffer 13) (seg.buffer.load32 8)).run seg.buffer =
      acceptSegment g i seg := by
  change Reading.run seg.buffer (match acknowledgeData (releasedBy g i seg) i seg with
    | .done g' () => _ | .blocked g' on => _ | .undefined => _) =
    (acknowledgeData (releasedBy g i seg) i seg).bind _
  cases acknowledgeData (releasedBy g i seg) i seg <;> rfl

/-- The port lookup finds `i`: the rest of `input_tcp_internal` on what is read of the segment. -/
theorem run_readPort (hlen : ¬ seg.header.headerLength < headerSize)
    (hfind : findSegmentPort g seg = some i) :
    (readPort g i seg).run seg.buffer = inputTcpInternal g seg := by
  by_cases hclosed : (g.ports i).state = .closed
  · simp [readPort, inputTcpInternal, checkSegment, hlen, hfind, hclosed]
  · simp only [readPort, inputTcpInternal, checkSegment, hlen, hfind, hclosed, if_false,
      Reading.run_bind, Reading.run_load32, Reading.run_load8]
    change Reading.run seg.buffer (if seg.rst then _ else if outOfSequence (g.ports i) seg then _
      else if seg.ack = false ∧ seg.syn = false then _ else _) = _
    by_cases hrst : seg.rst = true
    · simp [hrst]
    · by_cases hsequence : outOfSequence (g.ports i) seg = true
      · simp [hrst, hsequence]
      · by_cases hmalformed : seg.ack = false ∧ seg.syn = false
        · simp [hrst, hsequence, hmalformed]
        · simp only [hrst, hsequence, hmalformed, if_false, Bool.false_eq_true]
          exact run_readAccepted g i seg

/-- The program is `input_tcp_internal`. -/
theorem run_readInputTcpInternal :
    (readInputTcpInternal g seg).run seg.buffer = inputTcpInternal g seg := by
  have hfind : findSegmentPort g seg =
      match findPort g seg.header.dstPort seg.header.srcPort seg.srcIpv4Addr with
      | some i => some i
      | none => if seg.syn then findListeningPort g seg.header.dstPort else none := rfl
  have hnone : ¬ seg.header.headerLength < headerSize → findSegmentPort g seg = none →
      inputTcpInternal g seg = .done (g.warn .noPortFound) () := by
    intro hlen hnone
    simp [inputTcpInternal, checkSegment, hlen, hnone]
  simp only [readInputTcpInternal, Reading.run_bind, Reading.run_load8]
  change Reading.run seg.buffer (if seg.header.headerLength < headerSize then _ else _) = _
  split
  case isTrue hlen => simp [inputTcpInternal, checkSegment, hlen]
  case isFalse hlen =>
      simp only [Reading.run_bind, Reading.run_load16]
      change Reading.run seg.buffer
        (match findPort g seg.header.dstPort seg.header.srcPort seg.srcIpv4Addr with
          | some i => _ | none => _) = _
      cases hport : findPort g seg.header.dstPort seg.header.srcPort seg.srcIpv4Addr with
      | some i => exact run_readPort g i seg hlen (by rw [hfind, hport])
      | none =>
          rw [hport] at hfind
          simp only [Reading.run_bind, Reading.run_load8]
          change Reading.run seg.buffer (if seg.syn then match findListeningPort g
            seg.header.dstPort with | some i => _ | none => _ else _) = _
          split
          case isTrue hsyn =>
              simp only [hsyn, if_true] at hfind
              cases hlisten : findListeningPort g seg.header.dstPort with
              | some i => exact run_readPort g i seg hlen (hfind.trans hlisten)
              | none => exact (hnone hlen (hfind.trans hlisten)).symm
          case isFalse hsyn =>
              simp only [hsyn] at hfind
              exact (hnone hlen hfind).symm

end Reads

/-! ### What is delivered and acknowledged -/

/-- The call, if it is defined, delivers and acknowledges bytes of the segment only. -/
abbrev Outcome.Within {α : Type} (seg : Segment) (g : Globals) (o : Outcome α) : Prop :=
  o.Ends (Tcp.Within seg g)

section Within
variable {α β : Type} {g g' g'' : Globals} {i : PortIdx} {seg : Segment}
  {params : TcpTransmitParams}

theorem Within.refl (seg : Segment) (g : Globals) : Within seg g g :=
  ⟨⟨[], by simp⟩, fun _ => .inl rfl⟩

theorem Within.trans (h : Within seg g g') (h' : Within seg g' g'') : Within seg g g'' := by
  obtain ⟨l, hl, hrest⟩ := h.log
  obtain ⟨l', hl', hrest'⟩ := h'.log
  refine ⟨⟨l ++ l', by rw [hl', hl, List.append_assoc], fun e he => ?_⟩, fun j => ?_⟩
  · exact (List.mem_append.mp he).elim (hrest e) (hrest' e)
  · rcases h'.ackNum j with hsame | hacked
    · rw [hsame]
      exact h.ackNum j
    · exact .inr hacked

instance : IsPreorder Globals (Within seg) where
  refl := Within.refl seg
  trans _ _ _ := Within.trans

/-- Nothing is delivered, and only port `i` changes. -/
theorem within_setPort {p : TcpPort}
    (hp : p.ackNum = (g.ports i).ackNum ∨ AcksPayload seg p.ackNum) :
    Within seg g (g.setPort i p) := by
  refine ⟨⟨[], by simp⟩, ?_⟩
  intro j
  by_cases hj : j = i
  · subst hj
    simpa using hp
  · simp [hj]

theorem within_emit {e : Event} (he : DeliversRest seg e) : Within seg g (g.emit e) :=
  ⟨⟨[e], rfl, fun _ hmem => List.mem_singleton.mp hmem ▸ he⟩, fun _ => .inl rfl⟩

theorem LogQuiet.deliversRest (h : LogQuiet g g') :
    ∃ l, g'.log = g.log ++ l ∧ ∀ e ∈ l, DeliversRest seg e := by
  obtain ⟨l, hl, hquiet⟩ := h
  refine ⟨l, hl, ?_⟩
  intro e he
  have hq := hquiet e he
  cases e <;> simp_all [Event.quiet, DeliversRest]

theorem Quiet.within (h : Quiet g g') : Within seg g g' :=
  ⟨h.log.deliversRest, fun j => .inl (h.ackNum j)⟩

theorem Taken.within (h : Taken g i params g') : Within seg g g' := by
  cases h with
  | queued =>
      have hpush : ∀ g : Globals, Within seg g (g.pushSend params) :=
        fun g => ⟨⟨[], by simp⟩, fun _ => .inl rfl⟩
      refine Within.trans ?_ (within_emit trivial)
      exact (within_setPort (.inl (by rfl))).trans (hpush _)
  | full _ _ _ hquiet => exact hquiet.within
  | lost _ _ _ hquiet => exact (within_setPort (.inl (by rfl))).trans hquiet.within

theorem Enqueue.within {B : Prop} (h : Enqueue B g params g') : Within seg g g' := by
  cases h with
  | unfound _ hquiet => exact hquiet.within
  | noSlot _ _ _ _ hquiet => exact hquiet.within
  | taken _ h => exact h.within

theorem Reset.within (h : Reset g i g') : Within seg g g' := by
  obtain ⟨unacked, -, hports⟩ := h.ports
  obtain ⟨g₁, hquiet, hlog⟩ := h.log
  obtain ⟨l, hl, hrest⟩ : ∃ l, g₁.log = g.log ++ l ∧ ∀ e ∈ l, DeliversRest seg e :=
    hquiet.deliversRest
  refine ⟨⟨l ++ [.reset i (g.ports i).incarnation], ?_, ?_⟩, fun j => .inl ?_⟩
  · rw [hlog, hl, List.append_assoc]
  · intro e he
    rcases List.mem_append.mp he with he | he
    · exact hrest e he
    · obtain rfl := List.mem_singleton.mp he
      trivial
  · rw [hports]
    by_cases hj : j = i
    · subst hj
      simp
    · simp [hj]

theorem within_tcpEnqueueReliable (timeout : BitVec 32) :
    (tcpEnqueueReliable g params timeout).Within seg g :=
  ends_tcpEnqueueReliable (fun _ _ h => (tcpEnqueueReliable_done h).within) (.refl seg g)

/-- The ACK loop. -/
theorem within_processAck (n : BitVec 32) : Within seg g (processAck g i n) := by
  rw [processAck_eq]
  refine forIdx_invariant (P := Within seg g) (fun j t ht => ?_) (.refl seg g)
  split
  · refine ht.trans (Within.trans ?_ (releaseUnacked_spec t i j).within)
    exact (within_setPort (.inl (by simp [TcpPort.released, TcpPort.given]))).trans
      (within_emit trivial)
  · exact ht

/-- The header is one, and it fits into the segment. -/
structure HeaderFits (seg : Segment) : Prop where
  header : 5 ≤ seg.header.dOffset.toNat
  fits : 4 * seg.header.dOffset.toNat ≤ seg.length.toNat

theorem headerLength_toNat (seg : Segment) :
    seg.header.headerLength.toNat = 4 * seg.header.dOffset.toNat := by
  have hoffset : seg.header.dOffset.toNat < 16 := by
    rw [Segment.header, TcpHeader.read, BitVec.toNat_ushiftRight, Nat.shiftRight_eq_div_pow]
    have hbyte := (seg.buffer 12).isLt
    omega
  rw [TcpHeader.headerLength, BitVec.toNat_mul, BitVec.toNat_setWidth]
  change seg.header.dOffset.toNat % 65536 * 4 % 65536 = _
  omega

theorem HeaderFits.dataLength (h : HeaderFits seg) :
    seg.dataLength.toNat = seg.length.toNat - 4 * seg.header.dOffset.toNat := by
  have hfits := h.fits
  have hlength := seg.length.isLt
  rw [Segment.dataLength, BitVec.toNat_sub, headerLength_toNat]
  omega

theorem HeaderFits.acksPayload (h : HeaderFits seg) :
    AcksPayload seg (seg.header.seqNum + seg.sequenceIncrement.setWidth 32) := by
  have hheader := h.header
  have hlength := seg.length.isLt
  refine ⟨seg.sequenceIncrement.toNat, ?_, ?_⟩
  · rw [Segment.sequenceIncrement, BitVec.toNat_add, h.dataLength]
    split
    · change (_ + 1) % 65536 ≤ _
      omega
    · change (_ + 0) % 65536 ≤ _
      omega
  · congr 1
    rw [← BitVec.toNat_inj, BitVec.toNat_setWidth, BitVec.toNat_ofNat]

theorem within_acknowledgeData (h : HeaderFits seg) :
    (acknowledgeData g i seg).Within seg g := by
  have hadvanced : Within seg g (g.setPort i ((g.ports i).advanced seg)) :=
    within_setPort (.inr h.acksPayload)
  have hpush : ∀ (g : Globals) params, Within seg g (g.pushSend params) :=
    fun g params => ⟨⟨[], by simp⟩, fun _ => .inl rfl⟩
  rw [acknowledgeData_eq]
  split_ifs
  · exact ends_done (hadvanced.trans (hpush _ _))
  · exact fun g' hg' => Option.some.inj hg' ▸ hadvanced
  · exact ends_done (.refl seg g)

theorem within_callOnConnect : Within seg g (callOnConnect g i) := by
  unfold callOnConnect
  split
  · exact within_emit trivial
  · exact .refl seg g

theorem within_callOnDisconnect {n : Option Nat} : (callOnDisconnect g i n).Within seg g := by
  unfold callOnDisconnect
  split
  · exact ends_done (within_emit trivial)
  · exact ends_undefined

theorem within_deliverData (h : HeaderFits seg) : Within seg g (deliverData g i seg) := by
  have hfits := h.fits
  unfold deliverData
  split
  · split
    · refine within_emit ⟨rfl, headerLength_toNat seg, ?_⟩
      rw [headerLength_toNat, h.dataLength]
      omega
    · exact .refl seg g
  · exact .refl seg g

theorem within_setState (state : TcpState) : Within seg g (g.setState i state) :=
  within_setPort (.inl rfl)

theorem within_enterTimeWait : (enterTimeWait g i).Within seg g := by
  unfold enterTimeWait
  exact within_callOnDisconnect.after (within_setPort (.inl (by rfl)))

/-- The switch on the state, case by case. -/
theorem within_inputState (h : HeaderFits seg) : (inputState g i seg).Within seg g := by
  have hwarn : ∀ (g : Globals) w, Within seg g (g.warn w) := fun g w => within_emit trivial
  unfold inputState
  split
  case h_1 =>
      unfold inputListen
      split
      · exact ends_done (hwarn g _)
      · have htaken : Within seg g (g.setPort i ((g.ports i).takenOver seg)) :=
          within_setPort (.inr ⟨1, Nat.le_add_left 1 _, rfl⟩)
        exact (within_tcpEnqueueReliable _).ignore.after htaken
  case h_2 =>
      unfold inputSynSent
      split_ifs
      · exact ends_done (hwarn g _)
      · exact ends_done (hwarn g _)
      · exact ends_done ((within_setState _).trans within_callOnConnect)
  case h_3 =>
      unfold inputSynReceived
      split_ifs
      · exact ends_done (hwarn g _)
      · exact ends_done (hwarn g _)
      · exact ends_done ((within_setState _).trans within_callOnConnect)
  case h_4 =>
      unfold inputEstablished
      split
      · refine (within_tcpEnqueueReliable _).bind fun g' _ _ => ends_done ?_
        exact (within_setState _).trans (within_deliverData h)
      · exact ends_done (within_deliverData h)
  case h_5 =>
      unfold inputLastAck
      split_ifs
      · exact ends_done (hwarn g _)
      · exact ends_done (hwarn g _)
      · exact within_callOnDisconnect.after (tcpResetPort_spec g i).within
  case h_6 =>
      unfold inputFinWait1
      split_ifs
      · exact within_enterTimeWait
      · exact ends_done (.refl seg g)
      · exact ends_done (within_setState _)
  case h_7 =>
      unfold inputFinWait2
      split_ifs
      · exact ends_done (.refl seg g)
      · exact within_enterTimeWait
  case h_8 => exact ends_done (.refl seg g)
  case h_9 => exact ends_done (.refl seg g)
  case h_10 => exact ends_done (.refl seg g)

theorem within_acceptSegment (h : HeaderFits seg) : (acceptSegment g i seg).Within seg g := by
  have hreleased : Within seg g (releasedBy g i seg) := by
    unfold releasedBy
    split
    · exact within_processAck _
    · exact .refl seg g
  refine ((within_acknowledgeData h).bind fun g' _ _ => ?_).after hreleased
  exact (within_inputState h).after (within_setPort (.inl (by rfl)))

end Within

/-! ### The segments that are treated so -/

section Condition
variable {seg : Segment}

theorem headerLength_lt_iff :
    seg.header.headerLength < headerSize ↔ seg.header.dOffset.toNat < 5 := by
  rw [BitVec.lt_def, headerLength_toNat]
  change _ < 20 ↔ _
  omega

theorem inside_readInputTcp (g : Globals) (malloc : Option Memory) :
    (readInputTcp g seg.length seg.srcIpv4Addr malloc).Inside seg.length.toNat seg.buffer := by
  unfold readInputTcp
  cases malloc with
  | none => exact Reading.inside_pure _ _
  | some heap =>
      rw [Reading.inside_bind]
      refine ⟨Reading.inside_load _ (by omega), ?_⟩
      split <;> exact Reading.inside_pure _ _

theorem inside_readPort (g : Globals) (i : PortIdx) (hcontrol : 13 < seg.length.toNat)
    (hheader : seg.rst = true ∨ seg.ack = false ∧ seg.syn = false ∨ 15 < seg.length.toNat) :
    (readPort g i seg).Inside seg.length.toNat seg.buffer := by
  unfold readPort
  split
  · exact Reading.inside_pure _ _
  · simp only [Reading.inside_bind, Reading.inside_load32, Reading.inside_load8, Reading.run_load32,
      Reading.run_load8]
    refine ⟨by omega, by omega, hcontrol, ?_⟩
    change Reading.Inside _ _ (if seg.rst then _ else if outOfSequence (g.ports i) seg then _
      else if seg.ack = false ∧ seg.syn = false then _ else _)
    split
    · exact Reading.inside_pure _ _
    case isFalse hrst =>
        split
        · exact Reading.inside_pure _ _
        · split
          · exact Reading.inside_pure _ _
          case isFalse hmalformed =>
              have hwindow : 15 < seg.length.toNat :=
                (hheader.resolve_left hrst).resolve_left hmalformed
              unfold readAccepted
              simp only
              split
              · simpa using hwindow
              · exact Reading.inside_pure _ _
              · exact Reading.inside_pure _ _

/-- The reads stay inside a segment that is long enough. -/
theorem HoldsHeader.reads (h : HoldsHeader seg) (g : Globals) :
    (readInputTcpInternal g seg).Inside seg.length.toNat seg.buffer := by
  obtain ⟨hoffset, hrest⟩ := h
  simp only [readInputTcpInternal, Reading.inside_bind, Reading.inside_load8, Reading.run_load8]
  refine ⟨hoffset, ?_⟩
  change Reading.Inside _ _ (if seg.header.headerLength < headerSize then _ else _)
  split
  · exact Reading.inside_pure _ _
  case isFalse hlen =>
      rw [headerLength_lt_iff] at hlen
      obtain ⟨hcontrol, hheader⟩ := hrest.resolve_left hlen
      have hport : ∀ i, (readPort g i seg).Inside seg.length.toNat seg.buffer := by
        intro i
        refine inside_readPort g i hcontrol (hheader.imp_right (Or.imp_right fun hfits => ?_))
        omega
      simp only [Reading.inside_bind, Reading.inside_load16, Reading.run_load16]
      refine ⟨by omega, by omega, ?_⟩
      split
      · exact hport _
      · simp only [Reading.inside_bind, Reading.inside_load8, Reading.run_load8]
        refine ⟨hcontrol, ?_⟩
        change Reading.Inside _ _ (if seg.syn then _ else _)
        split
        · split
          · exact hport _
          · exact Reading.inside_pure _ _
        · exact Reading.inside_pure _ _

theorem HoldsHeader.within (h : HoldsHeader seg) {g g' : Globals}
    (hfinal : (inputTcpInternal g seg).final? = some g') : Within seg g g' := by
  cases hverdict : checkSegment g seg with
  | discard why =>
      rw [inputTcpInternal, hverdict] at hfinal
      exact Option.some.inj hfinal ▸ within_emit trivial
  | reset i =>
      rw [inputTcpInternal, hverdict] at hfinal
      obtain rfl := Option.some.inj hfinal
      exact Within.trans (within_emit (by trivial)) (tcpResetPort_spec _ i).within
  | accept i =>
      obtain ⟨-, -, hrst, -, hflags⟩ := checkSegment_accept hverdict
      have hlen : ¬ seg.header.headerLength < headerSize := by
        intro hshort
        simp [checkSegment, hshort] at hverdict
      rw [headerLength_lt_iff] at hlen
      have hfits : HeaderFits seg := by
        refine ⟨by omega, ?_⟩
        obtain ⟨-, hheader⟩ := h.2.resolve_left hlen
        rcases hheader with hreset | ⟨hack, hsyn⟩ | hfits
        · simp [hrst] at hreset
        · simp [hack, hsyn] at hflags
        · exact hfits
      rw [inputTcpInternal, hverdict] at hfinal
      exact within_acceptSegment hfits g' hfinal

/-- A state in which port 0 has the connection of the segment and expects it. -/
def connection (seg : Segment) : Globals :=
  Globals.setPort { selfNet := ⟨⟨0, 0, 0, 0, 0, 0⟩, ipv4AllZeroes⟩ } 0
    { selfPortNum := seg.header.dstPort
      otherPortNum := seg.header.srcPort
      otherIpv4Addr := seg.srcIpv4Addr
      state := .established
      ackNum := seg.header.seqNum
      unackedSlots := some (CountingSemaphore.create maxUnacked 0)
      onReceive := some 0 }

theorem find_connection (seg : Segment) :
    findPort (connection seg) seg.header.dstPort seg.header.srcPort seg.srcIpv4Addr = some 0 := by
  rw [findPort_eq_some_iff]
  refine ⟨by simp [connection, TcpPort.key], ?_⟩
  intro j hj
  exact absurd hj (Fin.not_lt_zero j)

/-- There the segment comes to its end with the delivery of its payload, if it passes the
    checks for its header and its flags. -/
theorem connection_delivers (hlen : ¬ seg.header.headerLength < headerSize)
    (hrst : seg.rst = false) (hflags : seg.ack = true ∨ seg.syn = true) :
    ∃ t, inputTcpInternal (connection seg) seg = .done (deliverData t 0 seg) () ∧
      (t.ports 0).onReceive.isSome = true := by
  have hport : ((connection seg).ports 0).state = .established := by simp [connection]
  have haccept : checkSegment (connection seg) seg = .accept 0 := by
    have hfind : findSegmentPort (connection seg) seg = some 0 := by
      rw [findSegmentPort, find_connection]
    have hsequence : outOfSequence ((connection seg).ports 0) seg = false := by
      simp [outOfSequence, connection]
    have hmalformed : ¬ (seg.ack = false ∧ seg.syn = false) := by
      rintro ⟨hack, hsyn⟩
      simp [hack, hsyn] at hflags
    simp [checkSegment, hlen, hfind, hport, hrst, hsequence, hmalformed]
  have hreleased : releasedBy (connection seg) 0 seg = connection seg := by
    unfold releasedBy
    split
    · exact processAck_eq_self_of_releases fun j => by simp [TcpPort.releases, connection]
    · rfl
  obtain ⟨t, hdata, hstate, hreceive, hslots, hkey⟩ : ∃ t,
      acknowledgeData (connection seg) 0 seg = .done t () ∧
        (t.ports 0).state = .established ∧ (t.ports 0).onReceive.isSome = true ∧
        (t.ports 0).slots = maxUnacked ∧ (t.ports 0).key = seg.key := by
    rw [acknowledgeData_eq]
    split
    · refine ⟨_, if_pos (by simp [connection, sendQueueLength]), ?_⟩
      simp [connection, TcpPort.advanced, TcpPort.slots, TcpPort.key, Segment.key,
        CountingSemaphore.create]
    · refine ⟨_, rfl, ?_⟩
      simp [connection, TcpPort.slots, TcpPort.key, Segment.key, CountingSemaphore.create]
  let u := t.setPort 0 { t.ports 0 with otherWindow := seg.header.window }
  have hu : u.ports 0 = { t.ports 0 with otherWindow := seg.header.window } := by simp [u]
  have hrun : inputTcpInternal (connection seg) seg = inputEstablished u 0 seg := by
    have hswitch : inputTcpInternal (connection seg) seg =
        (acknowledgeData (releasedBy (connection seg) 0 seg) 0 seg).bind fun g _ =>
          inputState (g.setPort 0 { g.ports 0 with otherWindow := seg.header.window }) 0 seg := by
      rw [inputTcpInternal, haccept]
      rfl
    rw [hswitch, hreleased, hdata]
    change inputState u 0 seg = _
    simp [inputState, hu, hstate]
  rw [hrun, inputEstablished]
  cases hfin : seg.fin with
  | false => exact ⟨u, by simp, by simpa [hu] using hreceive⟩
  | true =>
      -- the FIN is answered before the payload is delivered
      have hfind : findParamsPort u (replyParams (u.ports 0) seg.srcIpv4Addr (FIN + ACK)) =
          some 0 := by
        rw [findParamsPort_eq_some_iff]
        refine ⟨?_, fun j hj => absurd hj (Fin.not_lt_zero j)⟩
        have haddr : (t.ports 0).otherIpv4Addr = seg.srcIpv4Addr := congrArg (·.2.2) hkey
        simp [hu, replyParams, TcpPort.key, TcpTransmitParams.key, haddr]
      have hfree : 0 < (u.ports 0).slots := by
        have hsame : (u.ports 0).slots = (t.ports 0).slots := by rw [hu]; rfl
        rw [hsame, hslots]
        decide
      obtain ⟨v, r, hcall⟩ := tcpEnqueueReliable_returns portMaxDelay hfind hfree
      have hreceiver := (tcpEnqueueReliable_done hcall).receiver 0
      have hsame : (v.ports 0).onReceive = (t.ports 0).onReceive :=
        (congrArg (fun receiver => receiver.2.1) hreceiver).trans (by simp [hu, TcpPort.receiver])
      refine ⟨v.setState 0 .lastAck, ?_, ?_⟩
      · rw [if_pos rfl, hcall]
        rfl
      · simpa [Globals.setState, hsame] using hreceive

/-- A segment that is treated so in every state is long enough: the connection of the segment
    reads its control byte, and delivers what follows its header. -/
theorem StaysInSegment.holdsHeader (h : StaysInSegment seg) : HoldsHeader seg := by
  have hreads := h.reads (connection seg)
  simp only [readInputTcpInternal, Reading.inside_bind, Reading.inside_load8, Reading.run_load8]
    at hreads
  obtain ⟨hoffset, hreads⟩ := hreads
  refine ⟨hoffset, ?_⟩
  by_contra hno
  push Not at hno
  obtain ⟨hheader, hno⟩ := hno
  have hlen : ¬ seg.header.headerLength < headerSize := by
    rw [headerLength_lt_iff]
    omega
  have hcontrol : 13 < seg.length.toNat := by
    change Reading.Inside _ _ (if seg.header.headerLength < headerSize then _ else _) at hreads
    rw [if_neg hlen] at hreads
    simp only [Reading.inside_bind, Reading.inside_load16, Reading.run_load16] at hreads
    change _ ∧ _ ∧ Reading.Inside _ _ (match findPort (connection seg) seg.header.dstPort
      seg.header.srcPort seg.srcIpv4Addr with | some i => _ | none => _) at hreads
    rw [find_connection] at hreads
    have hport : (readPort (connection seg) 0 seg).Inside seg.length.toNat seg.buffer :=
      hreads.2.2
    have hopen : ((connection seg).ports 0).state ≠ .closed := by simp [connection]
    unfold readPort at hport
    rw [if_neg hopen] at hport
    simp only [Reading.inside_bind, Reading.inside_load8] at hport
    exact hport.2.2.1
  obtain ⟨hrst, hflags, hlong⟩ := hno hcontrol
  obtain ⟨t, hdone, hreceive⟩ := connection_delivers hlen (by simpa using hrst) (by
    cases hack : seg.ack with
    | true => exact .inl rfl
    | false => exact .inr (by simpa using hflags hack))
  have hlength : seg.dataLength.toNat = 2 ^ 16 + seg.length.toNat - 4 * seg.header.dOffset.toNat := by
    have hsmall : 4 * seg.header.dOffset.toNat < 2 ^ 16 := by
      rw [← headerLength_toNat]
      exact seg.header.headerLength.isLt
    rw [Segment.dataLength, BitVec.toNat_sub, headerLength_toNat]
    omega
  obtain ⟨callback, hcallback⟩ := Option.isSome_iff_exists.mp hreceive
  have hdelivers : deliverData t 0 seg = t.emit (.onReceive 0 (t.ports 0).incarnation seg.buffer
      seg.header.headerLength seg.dataLength) := by
    have hpos : seg.dataLength > 0 := by
      rw [gt_iff_lt, BitVec.lt_def, hlength]
      have hsmall := seg.header.headerLength.isLt
      rw [headerLength_toNat] at hsmall
      change 0 < _
      omega
    simp only [deliverData, if_pos hpos, hcallback]
  rw [hdelivers] at hdone
  obtain ⟨l, hl, hrest⟩ := (h.within _ _ (congrArg Outcome.final? hdone)).log
  have hcall := hrest (.onReceive 0 (t.ports 0).incarnation seg.buffer
    seg.header.headerLength seg.dataLength) (by
      have hempty : (connection seg).log = [] := rfl
      rw [hempty, List.nil_append] at hl
      rw [← hl]
      simp)
  obtain ⟨-, -, hsum⟩ := hcall
  rw [headerLength_toNat, hlength] at hsum
  omega

/-- In every state TCP reads, delivers and acknowledges bytes of the segment only, exactly when
    the segment holds its header or is dropped by the bytes that it has. -/
theorem staysInSegment_iff (seg : Segment) : StaysInSegment seg ↔ HoldsHeader seg := by
  constructor
  · exact StaysInSegment.holdsHeader
  · intro h
    exact ⟨inside_readInputTcp, h.reads, fun g g' => h.within⟩

end Condition

/-- A segment of 20 bytes whose data offset stands for a header of 60. -/
def longHeader : Segment := ⟨(peerDatagram 5000 80 1 1 ACK []).store 12 [0xF0], 20, peerNet.ip⟩

/-- The call returns, and a function of the application was given 65496 bytes from 60 on. -/
def deliversFrom60 (o : Outcome Unit) : Bool :=
  match o with
  | .done g' () => g'.log.any fun e =>
      match e with
      | .onReceive _ _ _ offset dataLen => offset == 60 && dataLen == 65496
      | _ => false
  | _ => false

theorem onReceive_of_deliversFrom60 {o : Outcome Unit} (h : deliversFrom60 o = true) :
    ∃ g', o = .done g' () ∧ ∃ slot n buffer, .onReceive slot n buffer 60 65496 ∈ g'.log := by
  cases o with
  | done g' r =>
      obtain ⟨e, he, hfields⟩ := List.any_eq_true.mp h
      cases e with
      | onReceive slot n buffer offset dataLen =>
          simp only [Bool.and_eq_true, beq_iff_eq] at hfields
          obtain ⟨rfl, rfl⟩ := hfields
          exact ⟨g', rfl, slot, n, buffer, he⟩
      | _ => cases hfields
  | _ => cases h

/-- After the handshake it hands 65496 bytes to the application, 40 bytes behind its end. -/
theorem long_header_delivered :
    ∃ s g', run step (boot hostNet) (handshake peerNet.ip) = some s ∧
      inputTcpInternal s.g longHeader = .done g' () ∧
      (∃ slot n buffer, .onReceive slot n buffer 60 65496 ∈ g'.log) ∧
      ¬ StaysInSegment longHeader := by
  obtain ⟨s, hs, hend⟩ := run_any
    (show (run step (boot hostNet) (handshake peerNet.ip)).any (fun s =>
      deliversFrom60 (inputTcpInternal s.g longHeader)) = true by decide +kernel)
  obtain ⟨g', hg', hcall⟩ := onReceive_of_deliversFrom60 hend
  refine ⟨s, g', hs, hg', hcall, ?_⟩
  intro hinside
  have hshort : ¬ HoldsHeader longHeader := by decide +kernel
  exact hshort hinside.holdsHeader

end NetStack.Tcp
