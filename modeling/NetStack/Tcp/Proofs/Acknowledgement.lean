import NetStack.Tcp.Proofs.Acceptance
import NetStack.Tcp.Proofs.Isolation

/-!
# What an acknowledgement releases

The ACK loop of `input_tcp_internal` tests every entry of the port against the acknowledgement
number. The turns of the loop leave each other's tests alone, and nothing else that the receive
path does takes an entry out of use, so that what a segment releases can be read off the state
before it. An entry is tested by its first sequence number only.
-/

namespace NetStack.Tcp
open NetStack.Lib

/-- The ACK loop takes entry `j` for acknowledged by `ackNum`. -/
def TcpPort.releases (p : TcpPort) (ackNum : BitVec 32) (j : UnackedIdx) : Bool :=
  ackNum ≤ p.seqNum && ((p.unacked j).inUse && (p.unacked j).seqNum ≤ ackNum)

/-- The end of the sequence range of an entry: its payload, and one for a SYN or a FIN. -/
def TcpUnacked.rangeEnd (entry : TcpUnacked) : Nat :=
  entry.seqNum.toNat + entry.dataLen.toNat +
    if flagSyn entry.control || flagFin entry.control then 1 else 0

/-- The acknowledgement number covers the entry's whole range, and nothing that has not been
    sent. -/
def Covers (p : TcpPort) (entry : TcpUnacked) (ackNum : BitVec 32) : Prop :=
  entry.rangeEnd ≤ ackNum.toNat ∧ ackNum ≤ p.seqNum

/-- The acknowledgement number falls on the start or into the middle of an entry. -/
def CutsEntry (p : TcpPort) (ackNum : BitVec 32) : Prop :=
  ackNum ≤ p.seqNum ∧ ∃ j, (p.unacked j).inUse = true ∧ (p.unacked j).seqNum ≤ ackNum ∧
    ackNum.toNat < (p.unacked j).rangeEnd

/-- Entry `j` of port `i` is taken out of use. -/
def Released (g g' : Globals) (i : PortIdx) (j : UnackedIdx) : Prop :=
  ((g.ports i).unacked j).inUse = true ∧ ((g'.ports i).unacked j).inUse = false

section Loop
variable {g : Globals} {i : PortIdx} {n : BitVec 32}

theorem ports_releaseUnacked (g : Globals) (i : PortIdx) (j : UnackedIdx) :
    (releaseUnacked g i j).ports = Function.update g.ports i ((g.ports i).released j) := by
  rw [releaseUnacked, Globals.ports_free, Globals.ports_emit]
  exact ports_clearEntry g i j

theorem unacked_releaseUnacked (g : Globals) (i : PortIdx) (j : UnackedIdx) :
    ((releaseUnacked g i j).ports i).unacked =
      Function.update (g.ports i).unacked j
        { (g.ports i).unacked j with inUse := false, data := none } := by
  rw [ports_releaseUnacked, Function.update_self]
  rfl

/-- The ACK loop makes its tests beforehand. -/
theorem processAck_eq (g : Globals) (i : PortIdx) (n : BitVec 32) :
    processAck g i n =
      forIdx (fun j t => if (g.ports i).releases n j then releaseUnacked t i j else t) g := by
  let test : UnackedIdx → Globals → Bool := fun k t =>
    ((t.ports i).unacked k).inUse && decide (((t.ports i).unacked k).seqNum ≤ n)
  have hkeep : ∀ j k (t : Globals), j ≠ k → test k (releaseUnacked t i j) = test k t := by
    intro j k t hjk
    dsimp only [test]
    rw [unacked_releaseUnacked, Function.update_of_ne (Ne.symm hjk)]
  have hloop := forIdx_test hkeep g
  unfold processAck
  split
  case isTrue hle =>
      rw [show ackUnacked i n = _ from funext fun j => funext fun t => ackUnacked_eq i n j t]
      simpa [TcpPort.releases, hle, test] using hloop
  case isFalse hle =>
      simp only [TcpPort.releases, hle, decide_false, Bool.false_and, if_neg Bool.false_ne_true]
      exact (forIdx_invariant (P := (· = g)) (fun _ _ h => h) rfl).symm

/-- Which entries are in use after the ACK loop. -/
theorem inUse_processAck (g : Globals) (i : PortIdx) (n : BitVec 32) (j : UnackedIdx) :
    (((processAck g i n).ports i).unacked j).inUse =
      (((g.ports i).unacked j).inUse && !(g.ports i).releases n j) := by
  rw [processAck_eq]
  have hentry : ∀ k l (t : Globals),
      (((if (g.ports i).releases n k then releaseUnacked t i k else t).ports i).unacked l).inUse =
        if l = k ∧ (g.ports i).releases n k = true then false
        else ((t.ports i).unacked l).inUse := by
    intro k l t
    by_cases hk : (g.ports i).releases n k = true
    · rw [if_pos hk, unacked_releaseUnacked]
      by_cases hl : l = k
      · subst hl
        simp [hk]
      · simp [hl]
    · simp [hk]
  cases hj : (g.ports i).releases n j with
  | true =>
      have hafter := forIdx_forall (P := fun _ => True)
        (Q := fun j (t : Globals) => (g.ports i).releases n j = true →
          ((t.ports i).unacked j).inUse = false)
        (fun _ _ _ => trivial) (fun j t _ hj => by rw [hentry, if_pos ⟨rfl, hj⟩])
        (fun j k t _ hq hj => by rw [hentry, hq hj, ite_self]) (s := g) trivial j hj
      rw [hafter]
      simp
  | false =>
      rw [Bool.not_false, Bool.and_true]
      refine forIdx_invariant
        (P := fun t : Globals => ((t.ports i).unacked j).inUse = ((g.ports i).unacked j).inUse) ?_ rfl
      intro k t ht
      rw [hentry, if_neg (by rintro ⟨rfl, hk⟩; simp [hj] at hk), ht]

theorem ports_processAck_of_ne (g : Globals) {i k : PortIdx} (n : BitVec 32) (hk : k ≠ i) :
    (processAck g i n).ports k = g.ports k := by
  rw [processAck_eq]
  refine forIdx_invariant (P := fun t : Globals => t.ports k = g.ports k) (fun j t ht => ?_) rfl
  split
  · rw [ports_releaseUnacked, Function.update_of_ne hk, ht]
  · exact ht

end Loop

/-! ### Nothing else takes an entry out of use -/

/-- The same entries are in use. -/
def SameUse (g g' : Globals) : Prop :=
  ∀ i j, ((g'.ports i).unacked j).inUse = ((g.ports i).unacked j).inUse

/-- The call, if it is defined, leaves the same entries in use. -/
abbrev Outcome.SameUse {α : Type} (g : Globals) (o : Outcome α) : Prop := o.Ends (Tcp.SameUse g)

section SameUse
variable {α β : Type} {g g' g'' : Globals} {i : PortIdx} {seg : Segment}
  {params : TcpTransmitParams}

theorem SameUse.refl (g : Globals) : SameUse g g := fun _ _ => rfl

theorem SameUse.trans (h : SameUse g g') (h' : SameUse g' g'') : SameUse g g'' :=
  fun i j => (h' i j).trans (h i j)

instance : IsPreorder Globals SameUse where
  refl := SameUse.refl
  trans _ _ _ := SameUse.trans

theorem sameUse_of_ports (h : g'.ports = g.ports) : SameUse g g' := fun i j => by rw [h]

theorem sameUse_setPort {p : TcpPort} (hp : ∀ j, (p.unacked j).inUse = ((g.ports i).unacked j).inUse) :
    SameUse g (g.setPort i p) := by
  intro k j
  by_cases hk : k = i
  · subst hk
    simpa using hp j
  · simp [hk]

theorem Quiet.sameUse (h : Quiet g g') : SameUse g g' := fun i j => by rw [h.unacked i]

theorem Taken.sameUse (h : Taken g i params g') : SameUse g g' := by
  cases h with
  | queued => exact sameUse_setPort fun _ => rfl
  | full _ _ _ hquiet => exact hquiet.sameUse
  | @lost sem sem' _ _ _ _ hquiet =>
      have htake : SameUse g (g.setPort i { g.ports i with unackedSlots := some sem' }) :=
        sameUse_setPort fun _ => rfl
      exact htake.trans hquiet.sameUse

theorem Enqueue.sameUse {B : Prop} (h : Enqueue B g params g') : SameUse g g' := by
  cases h with
  | unfound _ hquiet => exact hquiet.sameUse
  | noSlot _ _ _ _ hquiet => exact hquiet.sameUse
  | taken _ h => exact h.sameUse

theorem Reset.sameUse (h : Reset g i g') : SameUse g g' := by
  obtain ⟨unacked, hunacked, hports⟩ := h.ports
  have hset : SameUse g (g.setPort i
      { g.ports i with
        state := .closed, selfPortNum := 0, unacked := unacked, unackedSlots := none }) := by
    apply sameUse_setPort
    intro j
    obtain ⟨data, hdata⟩ := hunacked j
    simp [hdata]
  exact hset.trans (sameUse_of_ports hports)

theorem sameUse_tcpEnqueueReliable (timeout : BitVec 32) :
    (tcpEnqueueReliable g params timeout).SameUse g :=
  ends_tcpEnqueueReliable (fun _ _ h => (tcpEnqueueReliable_done h).sameUse) (SameUse.refl g)

theorem sameUse_setState (state : TcpState) : SameUse g (g.setState i state) :=
  sameUse_setPort fun _ => rfl

theorem sameUse_acknowledgeData : (acknowledgeData g i seg).SameUse g := by
  have hadvance : SameUse g (g.setPort i ((g.ports i).advanced seg)) :=
    sameUse_setPort fun _ => rfl
  rw [acknowledgeData_eq]
  split_ifs
  · exact ends_done hadvance
  · exact fun _ hg' => Option.some.inj hg' ▸ hadvance
  · exact ends_done (SameUse.refl g)

theorem sameUse_callOnConnect : SameUse g (callOnConnect g i) := by
  unfold callOnConnect
  split <;> exact sameUse_of_ports rfl

theorem sameUse_callOnDisconnect {n : Option Nat} : (callOnDisconnect g i n).SameUse g := by
  unfold callOnDisconnect
  split
  · exact ends_done (sameUse_of_ports rfl)
  · rintro g' ⟨⟩

theorem sameUse_deliverData : SameUse g (deliverData g i seg) := by
  unfold deliverData
  split
  · split <;> exact sameUse_of_ports rfl
  · exact SameUse.refl g

theorem sameUse_enterTimeWait : (enterTimeWait g i).SameUse g := by
  unfold enterTimeWait
  have hwait : SameUse g (g.setPort i
      { g.ports i with state := .timeWait, enteredTimeWaitAt := g.tick }) :=
    sameUse_setPort fun _ => rfl
  exact sameUse_callOnDisconnect.after hwait

theorem sameUse_inputState : (inputState g i seg).SameUse g := by
  have hwarn : ∀ w, (Outcome.done (g.warn w) ()).SameUse g := fun w =>
    ends_done (sameUse_of_ports rfl)
  have hconnect : (Outcome.done (callOnConnect (g.setState i .established) i) ()).SameUse g :=
    ends_done ((sameUse_setState _).trans sameUse_callOnConnect)
  unfold inputState
  cases (g.ports i).state with
  | listen =>
      have htaken : SameUse g (g.setPort i ((g.ports i).takenOver seg)) :=
        sameUse_setPort fun _ => rfl
      dsimp only
      unfold inputListen
      split
      · exact hwarn _
      · exact (sameUse_tcpEnqueueReliable _).ignore.after htaken
  | synSent =>
      dsimp only
      unfold inputSynSent
      split_ifs
      · exact hwarn _
      · exact hwarn _
      · exact hconnect
  | synReceived =>
      dsimp only
      unfold inputSynReceived
      split_ifs
      · exact hwarn _
      · exact hwarn _
      · exact hconnect
  | established =>
      dsimp only
      unfold inputEstablished
      split
      · apply (sameUse_tcpEnqueueReliable _).bind
        intro g' _ _
        exact ends_done ((sameUse_setState _).trans sameUse_deliverData)
      · exact ends_done sameUse_deliverData
  | lastAck =>
      dsimp only
      unfold inputLastAck
      split_ifs
      · exact hwarn _
      · exact hwarn _
      · exact sameUse_callOnDisconnect.after (tcpResetPort_spec g i).sameUse
  | finWait1 =>
      dsimp only
      unfold inputFinWait1
      split_ifs
      · exact sameUse_enterTimeWait
      · exact ends_done (SameUse.refl g)
      · exact ends_done (sameUse_setState _)
  | finWait2 =>
      dsimp only
      unfold inputFinWait2
      split_ifs
      · exact ends_done (SameUse.refl g)
      · exact sameUse_enterTimeWait
  | closed => exact ends_done (SameUse.refl g)
  | closeWait => exact ends_done (SameUse.refl g)
  | timeWait => exact ends_done (SameUse.refl g)

/-- After a segment has been accepted, the entries in use are those the ACK loop has left. -/
theorem sameUse_acceptSegment :
    (acceptSegment g i seg).SameUse (if seg.ack then processAck g i seg.header.ackNum else g) := by
  unfold acceptSegment
  apply sameUse_acknowledgeData.bind
  intro g' _ _
  have hwindow : SameUse g' (windowed g' i seg) := sameUse_setPort fun _ => rfl
  exact sameUse_inputState.after hwindow

end SameUse

/-! ### What a segment releases -/

section Release
variable {g g' : Globals} {seg : Segment}

/-- A segment releases the entries that the ACK loop of the port that accepts it takes for
    acknowledged, and no others. -/
theorem released_iff (h : (inputTcpInternal g seg).final? = some g') (i : PortIdx)
    (j : UnackedIdx) :
    Released g g' i j ↔ checkSegment g seg = .accept i ∧ seg.ack = true ∧
      (g.ports i).releases seg.header.ackNum j = true := by
  have hnone : SameUse g g' → ¬ Released g g' i j := fun hsame ⟨huse, hfree⟩ => by
    rw [hsame i j, huse] at hfree
    cases hfree
  unfold inputTcpInternal at h
  cases hcheck : checkSegment g seg with
  | discard why =>
      rw [hcheck] at h
      obtain rfl := Option.some.inj h
      simpa using hnone (sameUse_of_ports rfl)
  | reset k =>
      rw [hcheck] at h
      obtain rfl := Option.some.inj h
      have hreset : SameUse g (tcpResetPort (g.warn .forciblyClosed) k) :=
        (sameUse_of_ports rfl).trans (tcpResetPort_spec (g.warn .forciblyClosed) k).sameUse
      simpa using hnone hreset
  | accept k =>
      rw [hcheck] at h
      have hsame := sameUse_acceptSegment g' h
      cases hack : seg.ack with
      | false =>
          rw [hack, if_neg Bool.false_ne_true] at hsame
          simpa using hnone hsame
      | true =>
          rw [hack, if_pos rfl] at hsame
          by_cases hk : i = k
          · subst hk
            unfold Released
            rw [hsame i j, inUse_processAck]
            cases huse : ((g.ports i).unacked j).inUse <;>
              cases hrel : (g.ports i).releases seg.header.ackNum j <;>
              simp_all [TcpPort.releases]
          · have hother : ((g'.ports i).unacked j).inUse = ((g.ports i).unacked j).inUse := by
              rw [hsame i j, ports_processAck_of_ne g _ hk]
            unfold Released
            rw [hother]
            simp only [Verdict.accept.injEq, Ne.symm hk, false_and, iff_false]
            rintro ⟨huse, hfree⟩
            rw [huse] at hfree
            cases hfree

/-- A segment that is processed to its end, or to where `tcp_task` waits, releases only entries
    that it covers exactly if its acknowledgement number cuts no entry of the port. -/
theorem released_covered_iff (h : (inputTcpInternal g seg).final? = some g') :
    (∀ i j, Released g g' i j → Covers (g.ports i) ((g.ports i).unacked j) seg.header.ackNum) ↔
      ∀ i, checkSegment g seg = .accept i → seg.ack = true →
        ¬ CutsEntry (g.ports i) seg.header.ackNum := by
  have hreleases : ∀ i j, (g.ports i).releases seg.header.ackNum j = true ↔
      seg.header.ackNum ≤ (g.ports i).seqNum ∧ ((g.ports i).unacked j).inUse = true ∧
        ((g.ports i).unacked j).seqNum ≤ seg.header.ackNum := by
    intro i j
    simp [TcpPort.releases]
  constructor
  · rintro hcovers i hcheck hack ⟨hle, j, huse, hstart, hcut⟩
    have hreleased := (released_iff h i j).mpr
      ⟨hcheck, hack, (hreleases i j).mpr ⟨hle, huse, hstart⟩⟩
    exact absurd (hcovers i j hreleased).1 (Nat.not_le.mpr hcut)
  · intro hcuts i j hreleased
    obtain ⟨hcheck, hack, hrel⟩ := (released_iff h i j).mp hreleased
    obtain ⟨hle, huse, hstart⟩ := (hreleases i j).mp hrel
    refine ⟨Nat.le_of_not_lt fun hcut => ?_, hle⟩
    exact hcuts i hcheck hack ⟨hle, j, huse, hstart, hcut⟩

end Release

/-- The peer of `hostSends` sends an ACK with the given number. -/
def peerAcks (ackNum : BitVec 32) : Segment :=
  ⟨peerDatagram 5000 80 1 ackNum ACK [], 20, peerNet.ip⟩

/-- The acknowledgement of all three bytes. -/
theorem complete_ack_covers :
    ∃ s g', run step (boot hostNet) hostSends = some s ∧
      (inputTcpInternal s.g (peerAcks 4)).final? = some g' ∧ Released s.g g' 0 0 ∧
      ∀ i j, Released s.g g' i j → Covers (s.g.ports i) ((s.g.ports i).unacked j) 4 := by
  obtain ⟨s, hs, hend⟩ := run_any
    (show (run step (boot hostNet) hostSends).any (fun s =>
      ((inputTcpInternal s.g (peerAcks 4)).final?.any fun g' =>
        ((s.g.ports 0).unacked 0).inUse && !((g'.ports 0).unacked 0).inUse) &&
      decide (∀ i j, ((s.g.ports i).unacked j).inUse = true →
        ((s.g.ports i).unacked j).rangeEnd ≤ 4)) = true by decide +kernel)
  simp only [Bool.and_eq_true, Option.any_eq_true, Bool.not_eq_true', decide_eq_true_eq] at hend
  obtain ⟨⟨g', hg', hreleased⟩, hrange⟩ := hend
  refine ⟨s, g', hs, hg', hreleased, ?_⟩
  rw [show (4 : BitVec 32) = (peerAcks 4).header.ackNum by decide +kernel]
  apply (released_covered_iff hg').mpr
  rintro i - - ⟨-, j, huse, -, hcut⟩
  exact absurd (hrange i j huse) (Nat.not_le.mpr hcut)

/-- A repeated acknowledgement of the handshake releases the three bytes behind it. -/
theorem unacknowledged_data_released :
    ∃ s g', run step (boot hostNet) hostSends = some s ∧
      (∀ i j, ((s.g.ports i).unacked j).inUse = true →
        ((s.g.ports i).unacked j).rangeEnd ≤ (s.g.ports i).seqNum.toNat) ∧
      (peerAcks 1).ack = true ∧ (inputTcpInternal s.g (peerAcks 1)).final? = some g' ∧
      Released s.g g' 0 0 ∧
      ¬ Covers (s.g.ports 0) ((s.g.ports 0).unacked 0) (peerAcks 1).header.ackNum := by
  obtain ⟨s, hs, hend⟩ := run_any
    (show (run step (boot hostNet) hostSends).any (fun s =>
      decide (∀ i j, ((s.g.ports i).unacked j).inUse = true →
        ((s.g.ports i).unacked j).rangeEnd ≤ (s.g.ports i).seqNum.toNat) &&
      (peerAcks 1).ack &&
      ((inputTcpInternal s.g (peerAcks 1)).final?.any fun g' =>
        ((s.g.ports 0).unacked 0).inUse && !((g'.ports 0).unacked 0).inUse) &&
      decide ((peerAcks 1).header.ackNum.toNat < ((s.g.ports 0).unacked 0).rangeEnd)) = true by
      decide +kernel)
  simp only [Bool.and_eq_true, Option.any_eq_true, Bool.not_eq_true', decide_eq_true_eq] at hend
  obtain ⟨⟨⟨hbelow, hack⟩, g', hg', hreleased⟩, hcut⟩ := hend
  exact ⟨s, g', hs, hbelow, hack, hg', hreleased, fun hcovers =>
    absurd hcovers.1 (Nat.not_le.mpr hcut)⟩

end NetStack.Tcp
