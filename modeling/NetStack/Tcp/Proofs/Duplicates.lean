import NetStack.Tcp.Proofs.Datagram
import NetStack.Tcp.Proofs.Lookup

/-!
# Segments that have been received before

A peer that has not seen an acknowledgement sends its segment again. `input_tcp_internal`
takes only the segment that begins at `ack_num` and ignores every other one, so that what has
been received before is neither delivered nor acknowledged again.
-/

namespace NetStack.Tcp
open NetStack.Lib

/-- The states in which a port answers to a peer that has sent its SYN, but for the one that
    has taken its FIN. -/
def TcpState.answersPeer : TcpState → Bool
  | .synReceived | .established | .finWait1 | .finWait2 | .timeWait => true
  | .closed | .listen | .synSent | .closeWait | .lastAck => false

/-- How many sequence numbers a segment occupies: its payload, its SYN and its FIN. -/
def Segment.occupied (seg : Segment) : Nat :=
  seg.length.toNat - seg.header.headerLength.toNat + seg.syn.toNat + seg.fin.toNat

/-- The segment occupies a sequence number and lies wholly before `ackNum`. -/
def Segment.Before (seg : Segment) (ackNum : BitVec 32) : Prop :=
  0 < seg.occupied ∧ seg.occupied ≤ (ackNum - seg.header.seqNum).toNat

instance (seg : Segment) (ackNum : BitVec 32) : Decidable (seg.Before ackNum) :=
  inferInstanceAs (Decidable (_ ∧ _))

variable {g : Globals} {i : PortIdx} {seg : Segment}

/-- A segment before `ack_num` does not begin at it. -/
theorem Segment.Before.seqNum_ne {ackNum : BitVec 32} (h : seg.Before ackNum) :
    seg.header.seqNum ≠ ackNum := by
  obtain ⟨hpos, hle⟩ := h
  intro heq
  rw [heq, BitVec.sub_self] at hle
  exact absurd hpos (Nat.not_lt.mpr hle)

/-- It is out of sequence wherever the sequence numbers of the peer are known. -/
theorem outOfSequence_of_before {port : TcpPort} (hstate : port.state.answersPeer = true)
    (h : seg.Before port.ackNum) : outOfSequence port seg = true := by
  have hne := h.seqNum_ne
  cases hs : port.state <;> simp_all [outOfSequence, TcpState.answersPeer]

/-- What a port has received before it ignores, with a warning: nothing is queued, delivered or
    changed. -/
theorem duplicate_ignored (hfind : findSegmentPort g seg = some i)
    (hstate : (g.ports i).state.answersPeer = true) (hrst : seg.rst = false)
    (hbefore : seg.Before (g.ports i).ackNum) :
    ∃ why, inputTcpInternal g seg = .done (g.warn why) () := by
  have hopen : (g.ports i).state ≠ .closed := by
    intro hclosed
    simp [hclosed, TcpState.answersPeer] at hstate
  have hsequence := outOfSequence_of_before hstate hbefore
  by_cases hlen : seg.header.headerLength < headerSize
  · refine ⟨.invalidHeaderLength, ?_⟩
    simp [inputTcpInternal, checkSegment, hlen]
  · refine ⟨.unexpectedSequence, ?_⟩
    simp [inputTcpInternal, checkSegment, hlen, hfind, hopen, hrst, hsequence]

/-- The connection after the handshake, and three bytes that the peer has sent on it. -/
def receivesData : List Action :=
  handshake peerNet.ip ++
    [arrives peerNet.ip 5000 80 1 1 (ACK + PSH) [1, 2, 3], iterates, iterates]

/-- The same three bytes, sent again. -/
def repeatedSegment : Segment :=
  ⟨peerDatagram 5000 80 1 1 (ACK + PSH) [1, 2, 3], 23, peerNet.ip⟩

/-- The peer repeats a segment whose acknowledgement it has not seen; it is ignored. -/
theorem repeated_segment_ignored :
    ∃ s why, run step (boot hostNet) receivesData = some s ∧
      (s.g.ports 0).state = .established ∧ repeatedSegment.Before (s.g.ports 0).ackNum ∧
      inputTcpInternal s.g repeatedSegment = .done (s.g.warn why) () := by
  obtain ⟨s, hs, hend⟩ := run_any
    (show (run step (boot hostNet) receivesData).any (fun s =>
      (s.g.ports 0).state == .established && findSegmentPort s.g repeatedSegment == some 0 &&
        (!repeatedSegment.rst && repeatedSegment.Before (s.g.ports 0).ackNum)) = true by
      decide +kernel)
  simp only [Bool.and_eq_true, beq_iff_eq, Bool.not_eq_true', decide_eq_true_eq] at hend
  obtain ⟨⟨hstate, hfind⟩, hrst, hbefore⟩ := hend
  obtain ⟨why, hignored⟩ :=
    duplicate_ignored hfind (by rw [hstate]; rfl) hrst hbefore
  exact ⟨s, why, hs, hstate, hbefore, hignored⟩

/-- So nothing acknowledges it: what was in `send_queue` is all that is in it. -/
theorem repeated_segment_not_acknowledged :
    ∃ s, run step (boot hostNet) receivesData = some s ∧
      (s.g.ports 0).state = .established ∧ findSegmentPort s.g repeatedSegment = some 0 ∧
      repeatedSegment.rst = false ∧ repeatedSegment.ack = true ∧
      repeatedSegment.Before (s.g.ports 0).ackNum ∧
      ∃ g', inputTcpInternal s.g repeatedSegment = .done g' () ∧ g'.sendQueue = [] := by
  obtain ⟨s, hs, hend⟩ := run_any
    (show (run step (boot hostNet) receivesData).any (fun s =>
      (s.g.ports 0).state == .established && findSegmentPort s.g repeatedSegment == some 0 &&
        (!repeatedSegment.rst && repeatedSegment.ack &&
          repeatedSegment.Before (s.g.ports 0).ackNum &&
          match inputTcpInternal s.g repeatedSegment with
          | .done g' () => g'.sendQueue.isEmpty
          | _ => false)) = true by decide +kernel)
  simp only [Bool.and_eq_true, beq_iff_eq, Bool.not_eq_true', decide_eq_true_eq] at hend
  obtain ⟨⟨hstate, hfind⟩, ⟨⟨hrst, hack⟩, hbefore⟩, hdone⟩ := hend
  refine ⟨s, hs, hstate, hfind, hrst, hack, hbefore, ?_⟩
  split at hdone
  case h_1 g' hg' => exact ⟨g', hg', List.isEmpty_iff.mp hdone⟩
  case h_2 => cases hdone

end NetStack.Tcp
