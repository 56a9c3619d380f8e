import NetStack.Tcp.Proofs.Transitions
import NetStack.Tcp.Proofs.Datagram

/-!
# `ESTABLISHED` and the SYN behind it

A port that has not reached `ESTABLISHED` and whose `seq_num` is not 0 has transmitted a SYN
with sequence number 0, unless data or a FIN overtook the SYN. The two transitions to
`ESTABLISHED` then rest on that SYN if the acknowledgement number says so, which
`case SYN_SENT` does not check.
-/

namespace NetStack.Tcp
open NetStack.Lib

/-- The states before `ESTABLISHED`. -/
def TcpState.opening : TcpState → Bool
  | .listen | .synSent | .synReceived => true
  | .closed | .established | .finWait1 | .closeWait | .finWait2 | .lastAck | .timeWait => false

/-- Whatever an opening port has sent began with a SYN. -/
def SynFirst (g : Globals) : Prop :=
  ∀ i, (g.ports i).state.opening = true → (g.ports i).seqNum ≠ 0 → Transmitted g i flagSyn 0

theorem SynFirst.alike {g g' : Globals} (hsame : Alike g g') (h : SynFirst g) : SynFirst g' := by
  intro i hopening hseq
  rw [hsame.state i] at hopening
  rw [hsame.seqNum i] at hseq
  exact (h i hopening hseq).mono (hsame.incarnation i) (by simp [hsame.transmissions])

/-- A port changes: what it has sent as an opening port it has sent before. -/
theorem SynFirst.setPort {g : Globals} (h : SynFirst g) {i : PortIdx} {p : TcpPort}
    (hp : p.state.opening = true → p.seqNum ≠ 0 → (g.ports i).state.opening = true ∧
      (g.ports i).seqNum = p.seqNum ∧ p.incarnation = (g.ports i).incarnation) :
    SynFirst (g.setPort i p) := by
  intro k hopening hseq
  by_cases hk : k = i
  · subst hk
    simp only [Globals.ports_setPort, Function.update_self] at hopening hseq
    obtain ⟨hopening', hseq', hinc⟩ := hp hopening hseq
    exact (h k hopening' (hseq' ▸ hseq)).mono (by simpa using hinc) (List.Subset.refl _)
  · simp only [Globals.ports_setPort, Function.update_of_ne hk] at hopening hseq
    exact (h k hopening hseq).mono (by simp [hk]) (List.Subset.refl _)

theorem SynFirst.transmit {g : Globals} (h : SynFirst g) (t : Transmission) :
    SynFirst (g.emit (.transmit t)) := fun i hopening hseq =>
  (h i hopening hseq).mono rfl (by simp [transmissions])

/-- The step sends no data and no FIN before the SYN, and a port that it takes to
    `ESTABLISHED` has sent its SYN and has exactly that acknowledged. -/
def establishChecked (s : System) : Action → Bool
  | .tcpTask _ =>
      match (selectInput s.g).2 with
      | .send params =>
          match findParamsPort s.g params with
          | some i =>
              !(consumesSequence params && !flagSyn params.control &&
                (s.g.ports i).state.opening && (s.g.ports i).seqNum == 0)
          | none => true
      | .segment seg =>
          match checkSegment s.g seg with
          | .accept i =>
              match (s.g.ports i).state with
              | .synSent =>
                  !(seg.syn && seg.ack) ||
                    (seg.header.ackNum == 1 && (s.g.ports i).seqNum != 0)
              | .synReceived =>
                  !(seg.ack && seg.header.ackNum == (s.g.ports i).seqNum) ||
                    (s.g.ports i).seqNum == 1
              | _ => true
          | _ => true
      | _ => true
  | _ => true

theorem SynFirst.move {s s' : System} {a : Action} {g g' : Globals}
    (hc : establishChecked s a = true) (hm : Move s a s' g g') (h : SynFirst g) :
    SynFirst g' := by
  cases hm with
  | stay | wait | push | drop => exact h
  | pass | resend => exact SynFirst.transmit h _
  | @record env params rest i j now t ha hin hstage hqueue hfind hconsumes ht =>
      subst ha
      have hfind' : findParamsPort s.g params = some i :=
        hstage.findParamsPort params ▸ hfind
      simp only [establishChecked, hin, hfind', hconsumes, ← hstage.state i,
        ← hstage.seqNum i] at hc
      intro k hopening hseq
      by_cases hk : k = i
      · subst hk
        have hopening' : (g.ports k).state.opening = true := by
          simpa [recordUnacked] using hopening
        by_cases hzero : (g.ports k).seqNum = 0
        · -- the first request to go out is the SYN
          have hsyn : flagSyn params.control = true := by
            by_contra hno
            simp [hno, hopening', hzero] at hc
          refine ⟨t, by simp [transmissions, Event.transmission?], ht.slot, ?_,
            by rw [ht.params]; exact hsyn, ht.seqNum.trans hzero⟩
          simpa [recordUnacked, TcpPort.incarnation] using ht.incarnation
        · exact (h k hopening' hzero).mono (by simp [recordUnacked, TcpPort.incarnation])
            (by simp [transmissions])
      · simp only [Globals.ports_emit, Globals.ports_setPort, Function.update_of_ne hk]
          at hopening hseq
        exact (h k hopening hseq).mono (by simp [hk]) (by simp [transmissions])
  | reset => exact h.setPort (by simp [TcpPort.closed, TcpState.opening])
  | @takeOver i seg items hacc hstage hstate hsyn hqueues =>
      refine SynFirst.setPort h fun _ _ => ⟨?_, rfl, rfl⟩
      simp [hstage.state i, hstate, TcpState.opening]
  | establish | finWait2 => exact h.setPort (by simp [TcpState.opening])
  | timeWait => exact h.setPort (by simp [TcpState.opening])
  | finReply | close => exact SynFirst.setPort h (by simp [TcpState.opening])
  | listen => exact SynFirst.setPort h (by simp [newPort])
  | connect _ _ _ hport _ => exact SynFirst.setPort h (by simp [hport, connectingPort, newPort])

theorem synFirst_boot (net : NetContext) : SynFirst (boot net).g :=
  fun i => by simp [boot, TcpState.opening]

/-- The step takes port `i` to `ESTABLISHED`, or calls its `on_connect`. -/
def Connects (s s' : System) (i : PortIdx) : Prop :=
  (s.g.ports i).state ≠ .established ∧ (s'.g.ports i).state = .established ∨
    ∃ incarnation, .onConnect i incarnation ∈ s'.g.log.drop s.g.log.length

/-- A port connects on a segment that its case in the switch lets through. -/
theorem Connects.establishes {s s' : System} {a : Action} {i : PortIdx}
    (hstep : step s a = some s') (h : Connects s s' i) : ∃ seg, Establishes s a i seg := by
  rcases h with ⟨hbefore, hafter⟩ | ⟨incarnation, hevent⟩
  · rcases step_state hstep i with hsame | htransition
    · exact absurd (hsame.symm.trans hafter) hbefore
    · rw [hafter] at htransition
      cases htransition with
      | establish h => exact ⟨_, h⟩
  · obtain ⟨l, hlog, hlogs⟩ := step_logGrows hstep
    rw [hlog, List.drop_left] at hevent
    cases hlogs _ hevent with
    | quiet hquiet => simp [Event.quiet] at hquiet
    | onConnect _ hestablishes => exact ⟨_, hestablishes⟩

/-- In every run whose steps meet the condition, a port enters `ESTABLISHED`, and has its
    `on_connect` called, only on a segment whose acknowledgement number is one past the
    sequence number of a SYN that this incarnation of the port has handed to IPv4. -/
theorem connects_on_acknowledged_syn {net : NetContext} {as : List Action} {a : Action}
    {s s' : System} (hrun : run step (boot net) as = some s) (hstep : step s a = some s')
    (hg : Guarded step (establishChecked · ·) (boot net) (as ++ [a])) {i : PortIdx}
    (hconnects : Connects s s' i) : AcknowledgesFlag s a i flagSyn := by
  obtain ⟨hguard, hc⟩ := guarded_snoc hrun hg
  have hfirst : SynFirst s.g := moves_invariant (synFirst_boot net) SynFirst.alike
    (fun _ _ _ _ _ _ _ hc hm h => h.move hc hm) hguard hrun
  obtain ⟨seg, hacc, hstate, hack⟩ := hconnects.establishes hstep
  refine ⟨seg, 0, hacc, hack, ?_⟩
  obtain ⟨⟨⟨env, rfl⟩, hin⟩, hverdict⟩ := hacc
  simp only [establishChecked, hin, hverdict] at hc
  rcases hstate with ⟨hsynSent, hsyn⟩ | ⟨hsynReceived, hnum⟩
  · simp only [hsynSent, hsyn, hack, Bool.and_true, Bool.not_true, Bool.false_or, Bool.and_eq_true,
      beq_iff_eq, bne_iff_ne] at hc
    exact ⟨hfirst i (by simp [hsynSent, TcpState.opening]) hc.2, hc.1⟩
  · simp only [hsynReceived, hack, hnum, beq_self_eq_true, Bool.and_true, Bool.not_true,
      Bool.false_or, beq_iff_eq] at hc
    exact ⟨hfirst i (by simp [hsynReceived, TcpState.opening]) (by simp [hc]), by
      rw [hnum, hc]; rfl⟩

/-- A handshake without the iteration that processes its last segment. -/
def almostConnected : List Action := (handshake peerNet.ip).dropLast

/-- The port of a handshake connects on the acknowledgement of its SYN. -/
theorem handshake_acknowledges_syn :
    ∃ s s', run step (boot hostNet) almostConnected = some s ∧ step s iterates = some s' ∧
      Connects s s' 0 ∧ AcknowledgesFlag s iterates 0 flagSyn := by
  obtain ⟨s, hs, hend⟩ := run_any
    (show (run step (boot hostNet) almostConnected).any (fun s =>
      (s.g.ports 0).state == .synReceived && (step s iterates).any fun s' =>
        (s'.g.ports 0).state == .established) = true by decide +kernel)
  simp only [Bool.and_eq_true, beq_iff_eq, Option.any_eq_true] at hend
  obtain ⟨hbefore, s', hstep, hafter⟩ := hend
  have hconnects : Connects s s' 0 := .inl ⟨by simp [hbefore], hafter⟩
  exact ⟨s, s', hs, hstep, hconnects,
    connects_on_acknowledged_syn hs hstep (by decide +kernel) hconnects⟩

/-- The host connects, and its SYN is answered with the acknowledgement number 77. -/
def answeredWrongly : List Action :=
  [.tcpConnectPort 5000 80 peerNet.ip (some 1) (some 2) (some 3), iterates, iterates,
    arrives peerNet.ip 80 5000 500 77 (SYN + ACK) []]

/-- A port in `SYN_SENT` connects on an acknowledgement of a segment it has never sent. -/
theorem connects_on_wrong_ack :
    ∃ s s', run step (boot hostNet) answeredWrongly = some s ∧ step s iterates = some s' ∧
      Connects s s' 0 ∧ ¬ AcknowledgesFlag s iterates 0 flagSyn := by
  obtain ⟨s, hs, hend⟩ := run_any
    (show (run step (boot hostNet) answeredWrongly).any (fun s =>
      (s.g.ports 0).state == .synSent &&
      (match (selectInput s.g).2 with
        | .segment seg => seg.header.ackNum == 77
        | _ => false) &&
      (transmissions s.g.log).all (fun t => t.seqNum + 1 != 77) &&
      (step s iterates).any fun s' => (s'.g.ports 0).state == .established) = true by
        decide +kernel)
  simp only [Bool.and_eq_true, beq_iff_eq, Option.any_eq_true, List.all_eq_true,
    bne_iff_ne] at hend
  obtain ⟨⟨⟨hbefore, hsegment⟩, hsent⟩, s', hstep, hafter⟩ := hend
  refine ⟨s, s', hs, hstep, .inl ⟨by simp [hbefore], hafter⟩, ?_⟩
  rintro ⟨seg, seqNum, hacc, -, ⟨t, ht, -, -, -, hseq⟩, hnum⟩
  rw [hacc.processes.2] at hsegment
  have hack : seg.header.ackNum = 77 := by simpa using hsegment
  exact hsent t ht (by rw [hseq, ← hnum, hack])

end NetStack.Tcp
