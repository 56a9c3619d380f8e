import NetStack.Tcp.Proofs.Keys
import NetStack.Tcp.Proofs.Transitions
import NetStack.Tcp.Proofs.Datagram

/-!
# Closing and the FIN behind it

A port enters `FIN_WAIT_1` or `LAST_ACK` when its FIN is queued. As long as nothing is sent
after the FIN, the FIN is still in the queue or has been transmitted with the sequence number
before `seq_num`; an ACK of `seq_num` then acknowledges it unless it is still queued.
`case FIN_WAIT_1` checks neither.
-/

namespace NetStack.Tcp
open NetStack.Lib

/-- The states that wait for the acknowledgement of a FIN. -/
def TcpState.closing : TcpState → Bool
  | .finWait1 | .lastAck => true
  | .closed | .listen | .synSent | .synReceived | .established | .closeWait | .finWait2
  | .timeWait => false

/-- The FIN of port `i` is queued, or has been transmitted right before `seq_num`. -/
def FinBehind (g : Globals) (i : PortIdx) : Prop :=
  (∃ p ∈ g.sendQueue, p.key = (g.ports i).key ∧ flagFin p.control = true) ∨
    ∃ seqNum, Transmitted g i flagFin seqNum ∧ (g.ports i).seqNum = seqNum + 1

/-- Every closing port has its FIN behind it. -/
def FinsBehind (g : Globals) : Prop :=
  ∀ i, (g.ports i).state.closing = true → FinBehind g i

/-- A FIN of the connection is queued. -/
def finQueued (g : Globals) (key : Key) : Bool :=
  g.sendQueue.any fun p => flagFin p.control && p.key == key

/-- The step finds room for its FIN, sends the FIN of a closing port and nothing after it, and
    completes a close only on the acknowledgement of all that has been sent, with no FIN
    still queued. -/
def finsInOrder (s : System) : Action → Bool
  | .tcpTask env =>
      match (selectInput s.g).2 with
      | .send params =>
          match findParamsPort s.g params with
          | some i =>
              !(s.g.ports i).state.closing ||
                if flagFin params.control then
                  env.send.malloc.isSome && (findEmptyUnacked (s.g.ports i)).isSome
                else !consumesSequence params || finQueued s.g params.key
          | none => true
      | .segment seg =>
          match checkSegment s.g seg with
          | .accept i =>
              match (s.g.ports i).state with
              | .established =>
                  !seg.fin || s.g.sendQueue.length + (acksOf (s.g.ports i) seg).length <
                    sendQueueLength
              | .finWait1 =>
                  !(seg.ack && !seg.fin) || (!finQueued s.g (s.g.ports i).key &&
                    seg.header.ackNum == (s.g.ports i).seqNum)
              | .lastAck =>
                  !(seg.ack && seg.header.ackNum == (s.g.ports i).seqNum) ||
                    !finQueued s.g (s.g.ports i).key
              | _ => true
          | _ => true
      | .cmd (.close self other addr) =>
          match findPort s.g self other addr with
          | some i => (s.g.ports i).state.closing || s.g.sendQueue.length < sendQueueLength
          | none => true
      | _ => true
  | _ => true

theorem FinBehind.mono {g g' : Globals} {i : PortIdx} (h : FinBehind g i)
    (hkey : (g'.ports i).key = (g.ports i).key)
    (hseq : (g'.ports i).seqNum = (g.ports i).seqNum)
    (hinc : (g'.ports i).incarnation = (g.ports i).incarnation)
    (hqueue : ∀ p ∈ g.sendQueue, p.key = (g.ports i).key → flagFin p.control = true →
      p ∈ g'.sendQueue)
    (hlog : transmissions g.log ⊆ transmissions g'.log) : FinBehind g' i := by
  rcases h with ⟨p, hp, hpkey, hfin⟩ | ⟨seqNum, ht, hnum⟩
  · exact .inl ⟨p, hqueue p hp hpkey hfin, hpkey.trans hkey.symm, hfin⟩
  · exact .inr ⟨seqNum, ht.mono hinc hlog, hseq.trans hnum⟩

namespace FinsBehind
variable {g g' : Globals}

theorem alike (hsame : Alike g g') (h : FinsBehind g) : FinsBehind g' := by
  intro i hclosing
  rw [hsame.state i] at hclosing
  exact (h i hclosing).mono (hsame.key i) (hsame.seqNum i) (hsame.incarnation i)
    (fun p hp _ _ => hsame.sendQueue ▸ hp) (by simp [hsame.transmissions])

/-- A port changes and is not closing. -/
theorem setPort (h : FinsBehind g) {i : PortIdx} {p : TcpPort} (hp : p.state.closing = false) :
    FinsBehind (g.setPort i p) := by
  intro k hclosing
  by_cases hk : k = i
  · subst hk
    simp [hp] at hclosing
  · simp only [Globals.ports_setPort, Function.update_of_ne hk] at hclosing
    exact (h k hclosing).mono (by simp [hk]) (by simp [hk]) (by simp [hk])
      (fun _ hq _ _ => hq) (List.Subset.refl _)

theorem queueing (h : FinsBehind g) (items : List TcpTransmitParams) :
    FinsBehind (g.queueing items) := fun i hclosing =>
  (h i hclosing).mono rfl rfl rfl (fun _ hp _ _ => List.mem_append_left _ hp)
    (List.Subset.refl _)

theorem transmit (h : FinsBehind g) (t : Transmission) : FinsBehind (g.emit (.transmit t)) :=
  fun i hclosing => (h i hclosing).mono rfl rfl rfl (fun _ hp _ _ => hp) (by simp [transmissions])

/-- A request leaves the queue that is not the FIN of a closing port. -/
theorem dequeue (h : FinsBehind g) {params : TcpTransmitParams} {rest : List TcpTransmitParams}
    (hqueue : g.sendQueue = params :: rest)
    (hhead : ∀ i, (g.ports i).state.closing = true → params.key = (g.ports i).key →
      flagFin params.control = false) : FinsBehind { g with sendQueue := rest } := by
  intro i hclosing
  refine (h i hclosing).mono rfl rfl rfl (fun p hp hkey hfin => ?_) (List.Subset.refl _)
  rcases List.mem_cons.mp (hqueue ▸ hp) with rfl | hp
  · simp [hhead i hclosing hkey] at hfin
  · exact hp

end FinsBehind

/-- The port becomes a closing one and its FIN is queued. -/
theorem FinsBehind.close {g : Globals} (h : FinsBehind g) {i : PortIdx} {state : TcpState}
    {params : TcpTransmitParams} (hkey : params.key = (g.ports i).key)
    (hfin : flagFin params.control = true) :
    FinsBehind ((g.setState i state).queueing [params]) := by
  intro k hclosing
  by_cases hk : k = i
  · subst hk
    exact .inl ⟨params, by simp, by simpa [Globals.setState, TcpPort.key] using hkey, hfin⟩
  · have hclosing' : (g.ports k).state.closing = true := by
      simpa [Globals.setState, hk] using hclosing
    exact (h k hclosing').mono (by simp [Globals.setState, hk]) (by simp [Globals.setState, hk])
      (by simp [Globals.setState, hk]) (fun _ hp _ _ => List.mem_append_left _ hp)
      (List.Subset.refl _)

/-- The states in which only one port can have a key. -/
theorem TcpState.open_of_closing {state : TcpState} (h : state.closing = true) :
    state ≠ .closed ∧ state ≠ .listen := by
  cases state <;> simp_all [TcpState.closing]

theorem FinsBehind.move {s s' : System} {a : Action} {g g' : Globals}
    (hs' : s'.tcpTask = .running) (hreq : Requests Request s.g) (hkeys : KeysOk g)
    (hc : finsInOrder s a = true) (hm : Move s a s' g g') (h : FinsBehind g) :
    FinsBehind g' := by
  cases hm with
  | stay | wait => exact h
  | push => exact h.queueing _
  | @drop env params rest ha hin hstage hqueue hwhy =>
      subst ha
      apply h.dequeue hqueue
      intro i hclosing hkey
      obtain ⟨hopen, hlisten⟩ := TcpState.open_of_closing hclosing
      have hfind := hkeys.find hkey hopen hlisten
      rw [hstage.findParamsPort] at hfind
      by_contra hfin
      have hfin : flagFin params.control = true := by simpa using hfin
      simp only [finsInOrder, hin, hfind, ← hstage.state i, hclosing, hfin, Bool.not_true,
        Bool.false_or, if_true, Bool.and_eq_true] at hc
      rcases hwhy with hnone | hnone | ⟨k, hk, -, hfull⟩
      · simp [hnone] at hc
      · simp [hfind] at hnone
      · obtain rfl := Option.some.inj (hk.symm.trans hfind)
        simp [hfull] at hc
  | @pass env params rest i t _ hin hstage hqueue _ hplain _ =>
      refine (h.dequeue hqueue fun i hclosing hkey => ?_).transmit t
      have hmem : params ∈ s.g.sendQueue := by
        have : g.sendQueue = s.g.sendQueue := hstage.sendQueue_eq
        simp [← this, hqueue]
      by_contra hfin
      simp [((hreq.sendQueue params hmem).control_consumes (by simp_all)).1] at hplain
  | @record env params rest i j now t ha hin hstage hqueue hfind hconsumes ht =>
      subst ha
      have hmem : params ∈ s.g.sendQueue := by
        have : g.sendQueue = s.g.sendQueue := hstage.sendQueue_eq
        simp [← this, hqueue]
      have hkeyi := findParamsPort_key hfind
      intro k hclosing
      by_cases hk : k = i
      · subst hk
        have hclosing' : (g.ports k).state.closing = true := by
          simpa [recordUnacked] using hclosing
        rw [hstage.findParamsPort] at hfind
        simp only [finsInOrder, hin, hfind, ← hstage.state k, hclosing', Bool.not_true,
          Bool.false_or, hconsumes] at hc
        by_cases hfin : flagFin params.control = true
        · -- the FIN has been sent and `seq_num` is one past it
          obtain ⟨-, hone⟩ := (hreq.sendQueue params hmem).control_consumes (by simp [hfin])
          refine .inr ⟨(g.ports k).seqNum, ⟨t, by simp [transmissions, Event.transmission?],
            ht.slot, ?_, by rw [ht.params]; exact hfin, ht.seqNum⟩, ?_⟩
          · simpa [recordUnacked, TcpPort.incarnation] using ht.incarnation
          · simp [recordUnacked, hone]
        · -- another FIN is behind the request
          simp only [hfin, Bool.false_eq_true, if_false, finQueued, List.any_eq_true,
            Bool.and_eq_true, beq_iff_eq] at hc
          obtain ⟨p, hp, hpfin, hpkey⟩ := hc
          have hp' : p ∈ params :: rest := by
            have : g.sendQueue = s.g.sendQueue := hstage.sendQueue_eq
            simpa [← hqueue, this] using hp
          rcases List.mem_cons.mp hp' with rfl | hrest
          · exact absurd hpfin hfin
          · refine .inl ⟨p, hrest, ?_, hpfin⟩
            simpa [recordUnacked, TcpPort.key] using hpkey.trans hkeyi.symm
      · have hclosing' : (g.ports k).state.closing = true := by
          simpa [hk] using hclosing
        obtain ⟨hopen, hlisten⟩ := TcpState.open_of_closing hclosing'
        refine (h k hclosing').mono (by simp [hk]) (by simp [hk]) (by simp [hk])
          (fun p hp hkey hfin => ?_) (by simp [transmissions])
        rcases List.mem_cons.mp (hqueue ▸ hp) with rfl | hp
        · exact absurd (hkeys.unique (hkeyi.trans hkey) hopen hlisten) (Ne.symm hk)
        · exact hp
  | resend => exact h.transmit _
  | reset => exact h.setPort (by simp [TcpPort.closed, TcpState.closing])
  | takeOver =>
      exact FinsBehind.queueing (h.setPort (by simp [TcpPort.takenOver, TcpState.closing])) _
  | establish | finWait2 | timeWait => exact h.setPort (by simp [TcpState.closing])
  | @finReply i seg items hacc hstage hstate hfin hqueues =>
      have hlisten : (s.g.ports i).state ≠ .listen := by simp [hstate]
      have hkey := hacc.replyKey hlisten (FIN + ACK)
      have hopen : (g.ports i).state ≠ .closed := by simp [hstage.state i, hstate]
      have hkey' : (replyParams (s.g.ports i) seg.srcIpv4Addr (FIN + ACK)).key =
          (g.ports i).key := hkey.trans (hstage.key i).symm
      have hfind := hkeys.find hkey' hopen (by simp [hstage.state i, hstate])
      obtain ⟨⟨⟨env, rfl⟩, hin⟩, hverdict⟩ := hacc
      simp only [finsInOrder, hin, hverdict, hstate, hfin, Bool.not_true, Bool.false_or,
        decide_eq_true_eq] at hc
      have hroom : g.sendQueue.length < sendQueueLength := by
        simpa [hstage.sendQueue] using hc
      obtain rfl := hqueues.items_eq not_false hfind hopen hroom
      exact h.close hkey' (by simp only [replyParams]; decide)
  | @close self other addr i items hcmd hstage hfind hqueues =>
      have hfind' := findParamsPort_closing hstage hfind
      obtain ⟨⟨env, rfl⟩, hin⟩ := hcmd
      simp only [finsInOrder, hin, hfind, Bool.or_eq_true, decide_eq_true_eq] at hc
      rcases hc with hclosing | hroom
      · -- a port that was closing already still has its FIN
        refine FinsBehind.queueing (fun k hk => ?_) items
        by_cases hki : k = i
        · subst hki
          rw [← hstage.state k] at hclosing
          exact (h k hclosing).mono (by simp [Globals.setState, TcpPort.key])
            (by simp [Globals.setState]) (by simp [Globals.setState, TcpPort.incarnation])
            (fun _ hp _ _ => hp) (List.Subset.refl _)
        · simp only [Globals.setState, Globals.ports_setPort, Function.update_of_ne hki] at hk
          exact (h k hk).mono (by simp [Globals.setState, hki]) (by simp [Globals.setState, hki])
            (by simp [Globals.setState, hki]) (fun _ hp _ _ => hp) (List.Subset.refl _)
      · have hitems := hqueues.items_eq (by simp [hs']) hfind' (by simp [Globals.setState])
          (by simpa [Globals.setState, hstage.sendQueue] using hroom)
        subst hitems
        exact h.close ((finRequest_key hfind).trans (hstage.key i).symm)
          (by simp only [finRequest]; decide)
  | listen =>
      exact FinsBehind.setPort (g := { g with nextAddr := g.nextAddr + 1 })
        (p := { newPort _ _ _ _ _ with state := .listen }) h rfl
  | connect _ _ _ hport _ =>
      exact FinsBehind.queueing (FinsBehind.setPort (g := { g with nextAddr := g.nextAddr + 1 }) h
        (by simp [hport, connectingPort, TcpState.closing])) _

theorem finsBehind_boot (net : NetContext) : FinsBehind (boot net).g :=
  fun i => by simp [boot, TcpState.closing]

/-- The step takes port `i` from `FIN_WAIT_1` to `FIN_WAIT_2`, or from `LAST_ACK` to a reset,
    and not on an RST. -/
structure CompletesClose (s : System) (a : Action) (s' : System) (i : PortIdx) : Prop where
  moves : (s.g.ports i).state = .finWait1 ∧ (s'.g.ports i).state = .finWait2 ∨
    (s.g.ports i).state = .lastAck ∧ (s'.g.ports i).state = .closed
  noRst : ∀ seg, Processes s a (.segment seg) → seg.rst = false

/-- The segment on which a close completes. -/
theorem CompletesClose.segment {s s' : System} {a : Action} {i : PortIdx}
    (hstep : step s a = some s') (h : CompletesClose s a s' i) :
    ∃ seg, Accepts s a i seg ∧ seg.ack = true ∧
      ((s.g.ports i).state = .finWait1 ∧ seg.fin = false ∨
        (s.g.ports i).state = .lastAck ∧ seg.header.ackNum = (s.g.ports i).seqNum) := by
  rcases h.moves with ⟨hfrom, hto⟩ | ⟨hfrom, hto⟩
  · have htransition := (step_state hstep i).resolve_left (by simp [hfrom, hto])
    rw [hto] at htransition
    cases htransition with
    | finWait2 hacc _ hfin hack => exact ⟨_, hacc, hack, .inl ⟨hfrom, hfin⟩⟩
  · have htransition := (step_state hstep i).resolve_left (by simp [hfrom, hto])
    rw [hto] at htransition
    cases htransition with
    | reset hwhy =>
        cases hwhy with
        | rst seg hin hverdict =>
            have hrst := (checkSegment_reset hverdict).2.2
            simp [h.noRst seg hin] at hrst
        | lastAck seg hacc _ hack hnum => exact ⟨seg, hacc, hack, .inr ⟨hfrom, hnum⟩⟩
        | timeWait hin hover => simp [timeWaitOver, hfrom] at hover

/-- In every run whose steps keep the keys apart and the FINs in order, a close completes only
    on a segment that acknowledges exactly a FIN that this incarnation of the port has handed
    to IPv4. -/
theorem close_completes_on_acknowledged_fin {net : NetContext} {as : List Action} {a : Action}
    {s s' : System} (hrun : run step (boot net) as = some s) (hstep : step s a = some s')
    (hg : Guarded step (fun s a => keysApart s a && finsInOrder s a) (boot net) (as ++ [a]))
    {i : PortIdx} (hcompletes : CompletesClose s a s' i) : AcknowledgesFlag s a i flagFin := by
  obtain ⟨hguard, hc⟩ := guarded_snoc hrun hg
  obtain ⟨seg, hacc, hack, hfrom⟩ := hcompletes.segment hstep
  have hacc' := hacc
  obtain ⟨⟨⟨env, rfl⟩, hin⟩, hverdict⟩ := hacc'
  have hrunning := running_of_task hstep
  have hinv : KeysOk s.g ∧ FinsBehind s.g :=
    moves_invariant_running (P := fun g => KeysOk g ∧ FinsBehind g)
      ⟨keysOk_boot net, finsBehind_boot net⟩
      (fun hsame h => ⟨h.1.alike hsame, h.2.alike hsame⟩)
      (fun _ _ _ _ _ hs' hreq hs hc hm h =>
        have hc := Bool.and_eq_true_iff.mp hc
        ⟨hs.1.move hc.1 hm h.1, h.2.move hs' hreq h.1 hc.2 hm⟩) hguard hrun hrunning
  have hc := (Bool.and_eq_true_iff.mp hc).2
  simp only [finsInOrder, hin, hverdict] at hc
  have hsent : finQueued s.g (s.g.ports i).key = false ∧
      seg.header.ackNum = (s.g.ports i).seqNum ∧ (s.g.ports i).state.closing = true := by
    rcases hfrom with ⟨hstate, hfin⟩ | ⟨hstate, hnum⟩
    · simp only [hstate, hack, hfin, Bool.not_false, Bool.and_self, Bool.not_true, Bool.false_or,
        Bool.and_eq_true, Bool.not_eq_true', beq_iff_eq] at hc
      exact ⟨hc.1, hc.2, by simp [hstate, TcpState.closing]⟩
    · simp only [hstate, hack, hnum, beq_self_eq_true, Bool.and_self, Bool.not_true,
        Bool.false_or, Bool.not_eq_true'] at hc
      exact ⟨hc, hnum, by simp [hstate, TcpState.closing]⟩
  obtain ⟨hnone, hnum, hclosing⟩ := hsent
  rcases hinv.2 i hclosing with ⟨p, hp, hkey, hfin⟩ | ⟨seqNum, ht, hseq⟩
  · simp only [finQueued, List.any_eq_false] at hnone
    exact absurd (by simp [hkey, hfin]) (hnone p hp)
  · exact ⟨seg, seqNum, hacc, hack, ht, hnum.trans hseq⟩

/-- After a handshake the host closes, its FIN is sent, and the peer acknowledges it. -/
def finAcknowledged : List Action :=
  handshake peerNet.ip ++ [.tcpClosePort 80 5000 peerNet.ip, iterates, iterates,
    arrives peerNet.ip 5000 80 1 2 ACK []]

/-- Such a close completes on the acknowledgement of the FIN. -/
theorem close_acknowledges_fin :
    ∃ s s', run step (boot hostNet) finAcknowledged = some s ∧ step s iterates = some s' ∧
      CompletesClose s iterates s' 0 ∧ AcknowledgesFlag s iterates 0 flagFin := by
  obtain ⟨s, hs, hend⟩ := run_any
    (show (run step (boot hostNet) finAcknowledged).any (fun s =>
      (s.g.ports 0).state == .finWait1 &&
      (match (selectInput s.g).2 with
        | .segment seg => !seg.rst
        | _ => true) &&
      (step s iterates).any fun s' => (s'.g.ports 0).state == .finWait2) = true by
        decide +kernel)
  simp only [Bool.and_eq_true, beq_iff_eq, Option.any_eq_true] at hend
  obtain ⟨⟨hbefore, hrst⟩, s', hstep, hafter⟩ := hend
  have hcompletes : CompletesClose s iterates s' 0 :=
    ⟨.inl ⟨hbefore, hafter⟩, fun seg hin => by simpa [hin.2] using hrst⟩
  exact ⟨s, s', hs, hstep, hcompletes,
    close_completes_on_acknowledged_fin hs hstep (by decide +kernel) hcompletes⟩

/-- After a handshake the host closes, and before its FIN is sent an ordinary ACK arrives. -/
def ackedBeforeFin : List Action :=
  handshake peerNet.ip ++ [.tcpClosePort 80 5000 peerNet.ip,
    arrives peerNet.ip 5000 80 1 1 ACK [], iterates]

/-- The port moves to `FIN_WAIT_2` on an ACK although it has not sent its FIN. -/
theorem close_completes_without_fin :
    ∃ s s', run step (boot hostNet) ackedBeforeFin = some s ∧ step s iterates = some s' ∧
      CompletesClose s iterates s' 0 ∧ ¬ AcknowledgesFlag s iterates 0 flagFin := by
  obtain ⟨s, hs, hend⟩ := run_any
    (show (run step (boot hostNet) ackedBeforeFin).any (fun s =>
      (s.g.ports 0).state == .finWait1 &&
      (match (selectInput s.g).2 with
        | .segment seg => !seg.rst
        | _ => true) &&
      (transmissions s.g.log).all (fun t => !flagFin t.params.control) &&
      (step s iterates).any fun s' => (s'.g.ports 0).state == .finWait2) = true by
        decide +kernel)
  simp only [Bool.and_eq_true, beq_iff_eq, Option.any_eq_true, List.all_eq_true,
    Bool.not_eq_true'] at hend
  obtain ⟨⟨⟨hbefore, hrst⟩, hnone⟩, s', hstep, hafter⟩ := hend
  refine ⟨s, s', hs, hstep, ⟨.inl ⟨hbefore, hafter⟩, fun seg hin => by
    simpa [hin.2] using hrst⟩, ?_⟩
  rintro ⟨seg, seqNum, -, -, ⟨t, ht, -, -, hfin, -⟩, -⟩
  simp [hnone t ht] at hfin

end NetStack.Tcp
