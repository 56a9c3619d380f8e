import NetStack.Tcp.Proofs.Isolation

/-!
# Segments that a connection must not accept

A synchronized port accepts only the segment that comes next, and a listening port no RST.
`input_tcp_internal` checks for RST before it compares sequence numbers, so that the only
unacceptable segment that touches a port is an RST that resolves to it.
-/

namespace NetStack.Tcp
open NetStack.Lib

/-- The segment is out of sequence for a synchronized port, or an RST for a listening one. -/
def unacceptable (port : TcpPort) (seg : Segment) : Bool :=
  match port.state with
  | .synReceived | .established | .finWait1 | .finWait2 | .lastAck | .timeWait =>
      seg.header.seqNum != port.ackNum
  | .listen => seg.rst
  | .closed | .synSent | .closeWait => false

/-- Port `i` has the connection that it had, and none of its callbacks has been called, and
    none at all if the segment is for port `i`. -/
structure Untouched (g : Globals) (i : PortIdx) (seg : Segment) (g' : Globals) : Prop where
  state : (g'.ports i).state = (g.ports i).state
  key : (g'.ports i).key = (g.ports i).key
  seqNum : (g'.ports i).seqNum = (g.ports i).seqNum
  ackNum : (g'.ports i).ackNum = (g.ports i).ackNum
  unacked : (g'.ports i).unacked = (g.ports i).unacked
  callbacks : ∃ l, g'.log = g.log ++ l ∧ ∀ e ∈ l, e.callback? ≠ some i ∧
    (findSegmentPort g seg = some i → e.callback? = none)

/-- The segment is an RST of a valid length that resolves to port `i`. -/
def rstFor (g : Globals) (i : PortIdx) (seg : Segment) : Bool :=
  seg.rst && !(seg.header.headerLength < headerSize) && findSegmentPort g seg == some i

section Unacceptable
variable {g g' : Globals} {i : PortIdx} {seg : Segment}

theorem unacceptable_open (h : unacceptable (g.ports i) seg = true) :
    (g.ports i).state ≠ .closed := by
  intro hclosed
  simp [unacceptable, hclosed] at h

/-- A port does not accept what is unacceptable to it. -/
theorem checkSegment_ne_accept (h : unacceptable (g.ports i) seg = true) :
    checkSegment g seg ≠ .accept i := by
  intro haccept
  obtain ⟨-, -, hrst, hseq, -⟩ := checkSegment_accept haccept
  cases hstate : (g.ports i).state <;> simp_all [unacceptable, outOfSequence]

/-- The port that an RST is for is reset. -/
theorem checkSegment_eq_reset_iff (hopen : (g.ports i).state ≠ .closed) :
    checkSegment g seg = .reset i ↔ rstFor g i seg = true := by
  constructor
  · intro hreset
    obtain ⟨hfind, -, hrst⟩ := checkSegment_reset hreset
    have hlen : ¬ seg.header.headerLength < headerSize := by
      intro hshort
      simp [checkSegment, hshort] at hreset
    simp [rstFor, hrst, hfind, hlen]
  · intro hrst
    simp only [rstFor, Bool.and_eq_true, Bool.not_eq_true', decide_eq_false_iff_not,
      beq_iff_eq] at hrst
    obtain ⟨⟨hrst, hlen⟩, hfind⟩ := hrst
    simp [checkSegment, hlen, hfind, hopen, hrst]

/-- What is confined to other ports leaves port `i` untouched. -/
theorem Confined.untouched {S : Set PortIdx} (h : Confined S g g') (hi : i ∉ S)
    (hS : findSegmentPort g seg = some i → S = ∅) : Untouched g i seg g' := by
  have hport := h.ports i hi
  obtain ⟨l, hl, hcallbacks⟩ := h.log
  refine ⟨by rw [hport], by rw [hport], by rw [hport], by rw [hport], by rw [hport], l, hl,
    fun e he => ⟨fun hcall => hi (hcallbacks e he i hcall), fun hfind => ?_⟩⟩
  cases hcall : e.callback? with
  | none => rfl
  | some j =>
      have hj := hcallbacks e he j hcall
      rw [hS hfind] at hj
      cases hj

/-- An unacceptable segment leaves a port untouched unless it is an RST for the port. -/
theorem unacceptable_untouched_iff (h : unacceptable (g.ports i) seg = true) :
    (∀ g', (inputTcpInternal g seg).final? = some g' → Untouched g i seg g') ↔
      rstFor g i seg = false := by
  have hopen := unacceptable_open h
  constructor
  · intro huntouched
    by_contra hrst
    have hreset := (checkSegment_eq_reset_iff hopen).mpr (by simpa using hrst)
    have hafter := huntouched (tcpResetPort (g.warn .forciblyClosed) i) (by
      simp [inputTcpInternal, hreset, Outcome.final?])
    obtain ⟨unacked, -, hports⟩ := (tcpResetPort_spec (g.warn .forciblyClosed) i).ports
    have hclosed := hafter.state
    rw [hports, Function.update_self] at hclosed
    exact hopen hclosed.symm
  · intro hrst g' hg'
    have hreset : checkSegment g seg ≠ .reset i := by
      rw [ne_eq, checkSegment_eq_reset_iff hopen, hrst]
      simp
    have haccept := checkSegment_ne_accept h
    refine (confined_inputTcpInternal g seg g' hg').untouched ?_ fun hfind => ?_
    · cases hverdict : checkSegment g seg with
      | discard why => exact Set.notMem_empty i
      | reset k | accept k =>
          rw [hverdict] at hreset haccept
          rintro rfl
          simp at hreset haccept
    · cases hverdict : checkSegment g seg with
      | discard why => rfl
      | reset k =>
          obtain rfl := Option.some.inj (hfind.symm.trans (checkSegment_reset hverdict).1)
          exact absurd hverdict hreset
      | accept k =>
          obtain rfl := Option.some.inj (hfind.symm.trans (checkSegment_accept hverdict).1)
          exact absurd hverdict haccept

end Unacceptable

/-- A segment of the peer whose sequence number is not the one that port 0 expects after the
    handshake. -/
def outOfSequenceSegment (control : BitVec 8) : Segment :=
  ⟨peerDatagram 5000 80 12345 1 control [], 20, peerNet.ip⟩

/-- The ACK flag alone does nothing. -/
theorem out_of_sequence_ack_untouched :
    ∃ s, run step (boot hostNet) (handshake peerNet.ip) = some s ∧
      (s.g.ports 0).state = .established ∧
      ∀ g', (inputTcpInternal s.g (outOfSequenceSegment ACK)).final? = some g' →
        Untouched s.g 0 (outOfSequenceSegment ACK) g' := by
  obtain ⟨s, hs, hend⟩ := run_any
    (show (run step (boot hostNet) (handshake peerNet.ip)).any (fun s =>
      (s.g.ports 0).state == .established &&
        (unacceptable (s.g.ports 0) (outOfSequenceSegment ACK) &&
          !rstFor s.g 0 (outOfSequenceSegment ACK))) = true by decide +kernel)
  simp only [Bool.and_eq_true, beq_iff_eq, Bool.not_eq_true'] at hend
  obtain ⟨hstate, hunacceptable, hrst⟩ := hend
  exact ⟨s, hs, hstate, (unacceptable_untouched_iff hunacceptable).mpr hrst⟩

/-- The RST flag with the same sequence number resets the established port. -/
theorem out_of_sequence_rst_resets :
    ∃ s g', run step (boot hostNet) (handshake peerNet.ip) = some s ∧
      unacceptable (s.g.ports 0) (outOfSequenceSegment 0b100) = true ∧
      (inputTcpInternal s.g (outOfSequenceSegment 0b100)).final? = some g' ∧
      ¬ Untouched s.g 0 (outOfSequenceSegment 0b100) g' := by
  obtain ⟨s, hs, hend⟩ := run_any
    (show (run step (boot hostNet) (handshake peerNet.ip)).any (fun s =>
      (s.g.ports 0).state == .established &&
        (unacceptable (s.g.ports 0) (outOfSequenceSegment 0b100) &&
          (inputTcpInternal s.g (outOfSequenceSegment 0b100)).final?.any
            fun g' => (g'.ports 0).state == .closed)) = true by decide +kernel)
  simp only [Bool.and_eq_true, beq_iff_eq, Option.any_eq_true] at hend
  obtain ⟨hstate, hunacceptable, g', hg', hclosed⟩ := hend
  refine ⟨s, g', hs, hunacceptable, hg', ?_⟩
  intro huntouched
  have hsame := huntouched.state
  simp [hstate, hclosed] at hsame

end NetStack.Tcp
