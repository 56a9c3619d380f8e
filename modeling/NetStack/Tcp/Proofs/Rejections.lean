import NetStack.Tcp.Proofs.Acknowledgement

/-!
# Segments that a handshake rejects

The cases of `LISTEN`, `SYN_SENT` and `SYN_RECEIVED` log a warning for a segment that does not
continue the handshake and leave it at that. But `input_tcp_internal` has by then released what
the segment acknowledges, has acknowledged the segment and has taken over its window. A rejected
segment changes nothing exactly when there was nothing to release, to acknowledge or to take
over.
-/

namespace NetStack.Tcp
open NetStack.Lib

/-- The warning with which the case of a port's state rejects a segment in the handshake. -/
def TcpPort.rejection (port : TcpPort) (seg : Segment) : Option Warning :=
  match port.state with
  | .listen => if seg.syn then none else some .listenNoSyn
  | .synSent =>
      if seg.syn = false then some .synSentNoSyn
      else if seg.ack = false then some .synSentNoAck
      else none
  | .synReceived =>
      if seg.ack = false then some .synReceivedNoAck
      else if seg.header.ackNum ≠ port.seqNum then some .synReceivedUnexpectedAck
      else none
  | .closed | .established | .finWait1 | .closeWait | .finWait2 | .lastAck | .timeWait => none

/-- Port `i` is as it was, and nothing has been queued. -/
structure Atomic (g : Globals) (i : PortIdx) (g' : Globals) : Prop where
  state : (g'.ports i).state = (g.ports i).state
  ackNum : (g'.ports i).ackNum = (g.ports i).ackNum
  seqNum : (g'.ports i).seqNum = (g.ports i).seqNum
  otherWindow : (g'.ports i).otherWindow = (g.ports i).otherWindow
  unacked : (g'.ports i).unacked = (g.ports i).unacked
  unackedSlots : (g'.ports i).unackedSlots = (g.ports i).unackedSlots
  sendQueue : g'.sendQueue = g.sendQueue

section Rejection
variable {g t : Globals} {i : PortIdx} {seg : Segment} {why : Warning}

/-- What a rejection depends on. -/
theorem TcpPort.rejection_congr {p p' : TcpPort} (hstate : p.state = p'.state)
    (hseq : p.seqNum = p'.seqNum) : p.rejection seg = p'.rejection seg := by
  simp only [TcpPort.rejection, hstate, hseq]

/-- The case of the state logs the warning and does nothing else. -/
theorem inputState_rejection (h : (t.ports i).rejection seg = some why) :
    inputState t i seg = .done (t.warn why) () := by
  unfold TcpPort.rejection at h
  split at h
  case h_1 hstate =>
      cases hsyn : seg.syn <;> simp_all [inputState, inputListen]
  case h_2 hstate =>
      simp only [inputState, hstate, inputSynSent]
      split at h
      case isTrue hsyn => simp_all
      case isFalse hsyn => split at h <;> simp_all
  case h_3 hstate =>
      simp only [inputState, hstate, inputSynReceived]
      split at h
      case isTrue hack => simp_all
      case isFalse hack => split at h <;> simp_all
  all_goals cases h

/-- A port that rejects a segment in the handshake acknowledges it if it occupies a sequence
    number, unless it listens. -/
theorem acknowledges_of_rejection (h : (g.ports i).rejection seg = some why) :
    acknowledges (g.ports i) seg = false ↔
      seg.sequenceIncrement = 0 ∨ (g.ports i).state = .listen := by
  have hlast : (g.ports i).state ≠ .lastAck := by
    intro hlast
    simp [TcpPort.rejection, hlast] at h
  have hpos : seg.sequenceIncrement > 0 ↔ seg.sequenceIncrement ≠ 0 := by
    rw [gt_iff_lt, BitVec.lt_def, ne_eq, ← BitVec.toNat_inj]
    exact Nat.pos_iff_ne_zero
  rw [← Bool.not_eq_true, acknowledges_iff, hpos]
  simp [hlast, or_iff_not_imp_left]

/-- ACK processing touches entries and slots only. -/
theorem settled_processAck (g : Globals) (i : PortIdx) (n : BitVec 32) :
    ((processAck g i n).ports i).settled = (g.ports i).settled ∧
      (processAck g i n).sendQueue = g.sendQueue := by
  rw [processAck_eq]
  refine forIdx_invariant (P := fun t : Globals =>
    (t.ports i).settled = (g.ports i).settled ∧ t.sendQueue = g.sendQueue) ?_ ⟨rfl, rfl⟩
  rintro j t ⟨hsettled, hqueue⟩
  split
  · refine ⟨?_, (releaseUnacked_spec t i j).sendQueue.trans hqueue⟩
    rw [ports_releaseUnacked, Function.update_self, ← hsettled, TcpPort.released, TcpPort.given]
    rfl
  · exact ⟨hsettled, hqueue⟩

/-- ACK processing that releases nothing does nothing. -/
theorem processAck_eq_self_of_releases {n : BitVec 32}
    (h : ∀ j, (g.ports i).releases n j = false) : processAck g i n = g := by
  rw [processAck_eq]
  refine forIdx_invariant (P := (· = g)) ?_ rfl
  rintro j t rfl
  rw [h j, if_neg Bool.false_ne_true]

/-- ACK processing that leaves the entries as they are has released nothing. -/
theorem releases_of_unacked_eq {n : BitVec 32}
    (h : ((processAck g i n).ports i).unacked = (g.ports i).unacked) (j : UnackedIdx) :
    (g.ports i).releases n j = false := by
  have hentry := inUse_processAck g i n j
  rw [h] at hentry
  by_contra hreleases
  rw [Bool.not_eq_false] at hreleases
  have hused : ((g.ports i).unacked j).inUse = true := by
    simp only [TcpPort.releases, Bool.and_eq_true] at hreleases
    exact hreleases.2.1
  simp [hused, hreleases] at hentry

/-- The state before the switch, when the segment is not acknowledged: what it acknowledges has
    been released. -/
def releasedBy (g : Globals) (i : PortIdx) (seg : Segment) : Globals :=
  if seg.ack then processAck g i seg.header.ackNum else g

theorem settled_releasedBy (g : Globals) (i : PortIdx) (seg : Segment) :
    ((releasedBy g i seg).ports i).settled = (g.ports i).settled ∧
      (releasedBy g i seg).sendQueue = g.sendQueue := by
  unfold releasedBy
  split
  · exact settled_processAck g i seg.header.ackNum
  · exact ⟨rfl, rfl⟩

theorem unacked_releasedBy_iff :
    ((releasedBy g i seg).ports i).unacked = (g.ports i).unacked ↔
      (seg.ack = true → ∀ j, (g.ports i).releases seg.header.ackNum j = false) := by
  unfold releasedBy
  constructor
  · intro h hack
    rw [if_pos hack] at h
    exact releases_of_unacked_eq h
  · intro h
    split
    case isTrue hack => rw [processAck_eq_self_of_releases (h hack)]
    case isFalse => rfl

/-- A segment that the handshake rejects passes through all that comes before the switch. -/
theorem acceptSegment_rejection (h : (g.ports i).rejection seg = some why) :
    acceptSegment g i seg =
      (acknowledgeData (releasedBy g i seg) i seg).bind fun t _ =>
        .done ((t.setPort i { t.ports i with otherWindow := seg.header.window }).warn why) () := by
  have hsettled := (settled_releasedBy g i seg).1
  have hstart : ((releasedBy g i seg).ports i).rejection seg = some why := by
    rw [TcpPort.rejection_congr (TcpPort.state_of_settled hsettled)
      (TcpPort.seqNum_of_settled hsettled), h]
  show (acknowledgeData (releasedBy g i seg) i seg).bind _ = _
  cases hdata : acknowledgeData (releasedBy g i seg) i seg with
  | blocked t on => rfl
  | undefined => rfl
  | done t u =>
      obtain ⟨hstate, hseq⟩ : (t.ports i).state = ((releasedBy g i seg).ports i).state ∧
          (t.ports i).seqNum = ((releasedBy g i seg).ports i).seqNum := by
        rcases acknowledgeData_done hdata with ⟨-, -, rfl⟩ | ⟨-, rfl⟩
        · simp [TcpPort.advanced]
        · exact ⟨rfl, rfl⟩
      apply inputState_rejection
      rw [← hstart]
      exact TcpPort.rejection_congr (by simpa using hstate) (by simpa using hseq)

/-- A rejection in the handshake leaves port and queue as they were exactly when the segment has
    the window that the port knows, occupies no sequence number or meets a listening port, and
    releases nothing. -/
theorem rejection_atomic_iff (haccept : checkSegment g seg = .accept i)
    (hrejection : (g.ports i).rejection seg = some why) :
    (∃ g', inputTcpInternal g seg = .done g' () ∧ Atomic g i g') ↔
      seg.header.window = (g.ports i).otherWindow ∧
        (seg.sequenceIncrement = 0 ∨ (g.ports i).state = .listen) ∧
        (seg.ack = true → ∀ j, (g.ports i).releases seg.header.ackNum j = false) := by
  obtain ⟨hsettled, hqueue⟩ := settled_releasedBy g i seg
  have hrun : inputTcpInternal g seg = acceptSegment g i seg := by
    simp [inputTcpInternal, haccept]
  rw [hrun, acceptSegment_rejection hrejection, ← acknowledges_of_rejection hrejection,
    ← unacked_releasedBy_iff]
  constructor
  · rintro ⟨g', hdone, hatomic⟩
    cases hdata : acknowledgeData (releasedBy g i seg) i seg with
    | blocked t on => simp [hdata, Outcome.bind] at hdone
    | undefined => simp [hdata, Outcome.bind] at hdone
    | done t u =>
        rw [hdata] at hdone
        obtain ⟨rfl, -⟩ := Outcome.done.inj hdone
        rcases acknowledgeData_done hdata with ⟨-, -, rfl⟩ | ⟨hacks, rfl⟩
        · -- an ACK has been queued
          have hlonger := congrArg List.length (hatomic.sendQueue.trans hqueue.symm)
          simp [Globals.warn] at hlonger
        · rw [acknowledges_congr (TcpPort.state_of_settled hsettled)] at hacks
          refine ⟨?_, hacks, ?_⟩
          · simpa [Globals.warn] using hatomic.otherWindow
          · simpa [Globals.warn] using hatomic.unacked
  · rintro ⟨hwindow, hacks, hunacked⟩
    have hsame : releasedBy g i seg = g := by
      have hreleases := unacked_releasedBy_iff.mp hunacked
      unfold releasedBy
      split
      case isTrue hack => exact processAck_eq_self_of_releases (hreleases hack)
      case isFalse => rfl
    have hdata : acknowledgeData g i seg = .done g () := by
      rw [acknowledgeData_eq, if_neg (by simp [hacks])]
    rw [hsame, hdata]
    refine ⟨_, rfl, ?_⟩
    constructor <;> simp [Globals.warn, hwindow]

end Rejection

/-- The SYN of a peer has reached the listening host, whose answer is out. -/
def receivesSyn : List Action :=
  [.tcpListenPort 80 (some 1) (some 2) (some 3), iterates, arrives peerNet.ip 5000 80 0 0 SYN [],
    iterates, iterates]

/-- A segment of the peer that acknowledges what the host has not sent. -/
def unexpectedAck : Segment := ⟨peerDatagram 5000 80 1 7 ACK [], 20, peerNet.ip⟩

/-- It is rejected, and nothing changes. -/
theorem unexpected_ack_atomic :
    ∃ s g', run step (boot hostNet) receivesSyn = some s ∧
      (s.g.ports 0).state = .synReceived ∧
      inputTcpInternal s.g unexpectedAck = .done g' () ∧ Atomic s.g 0 g' := by
  obtain ⟨s, hs, hend⟩ := run_any
    (show (run step (boot hostNet) receivesSyn).any (fun s =>
      (s.g.ports 0).state == .synReceived && checkSegment s.g unexpectedAck == .accept 0 &&
        (s.g.ports 0).rejection unexpectedAck == some .synReceivedUnexpectedAck &&
        ((s.g.ports 0).otherWindow == 1500 && (s.g.ports 0).seqNum == 1)) = true by
      decide +kernel)
  simp only [Bool.and_eq_true, beq_iff_eq] at hend
  obtain ⟨⟨⟨hstate, haccept⟩, hrejection⟩, hwindow, hseq⟩ := hend
  obtain ⟨g', hdone, hatomic⟩ := (rejection_atomic_iff haccept hrejection).mpr (by
    refine ⟨?_, .inl (by decide +kernel), ?_⟩
    · rw [hwindow]
      decide +kernel
    · intro _ j
      have hbeyond : ¬ unexpectedAck.header.ackNum ≤ (s.g.ports 0).seqNum := by
        rw [hseq]
        decide +kernel
      simp [TcpPort.releases, hbeyond])
  exact ⟨s, g', hs, hstate, hdone, hatomic⟩

/-- The host's SYN is out. -/
def sendsSyn : List Action :=
  [.tcpConnectPort 5000 80 peerNet.ip (some 1) (some 2) (some 3), iterates, iterates]

/-- The peer acknowledges it, but without a SYN of its own. -/
def ackWithoutSyn : Segment := ⟨peerDatagram 80 5000 7 1 ACK [], 20, peerNet.ip⟩

/-- The segment is rejected, but the SYN will not be retransmitted any more. -/
theorem ack_without_syn_releases :
    ∃ s g', run step (boot hostNet) sendsSyn = some s ∧ (s.g.ports 0).state = .synSent ∧
      ackWithoutSyn.rst = false ∧ checkSegment s.g ackWithoutSyn = .accept 0 ∧
      (s.g.ports 0).rejection ackWithoutSyn = some .synSentNoSyn ∧
      ((s.g.ports 0).unacked 0).inUse = true ∧
      inputTcpInternal s.g ackWithoutSyn = .done g' () ∧
      ((g'.ports 0).unacked 0).inUse = false ∧ ¬ Atomic s.g 0 g' := by
  obtain ⟨s, hs, hend⟩ := run_any
    (show (run step (boot hostNet) sendsSyn).any (fun s =>
      (s.g.ports 0).state == .synSent && checkSegment s.g ackWithoutSyn == .accept 0 &&
        (s.g.ports 0).rejection ackWithoutSyn == some .synSentNoSyn &&
        (((s.g.ports 0).unacked 0).inUse &&
          match inputTcpInternal s.g ackWithoutSyn with
          | .done g' () => !((g'.ports 0).unacked 0).inUse
          | _ => false)) = true by decide +kernel)
  simp only [Bool.and_eq_true, beq_iff_eq] at hend
  obtain ⟨⟨⟨hstate, haccept⟩, hrejection⟩, hused, hdone⟩ := hend
  split at hdone
  case h_1 g' hg' =>
      have hreleased : ((g'.ports 0).unacked 0).inUse = false := by simpa using hdone
      refine ⟨s, g', hs, hstate, by decide +kernel, haccept, hrejection, hused, hg', hreleased,
        fun hatomic => ?_⟩
      rw [hatomic.unacked, hused] at hreleased
      cases hreleased
  case h_2 => cases hdone

end NetStack.Tcp
