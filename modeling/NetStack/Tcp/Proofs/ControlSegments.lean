import NetStack.Tcp.Proofs.Custody
import NetStack.Tcp.Proofs.Keys
import NetStack.Tcp.Proofs.Waiting

/-!
# Control states and their segments

A port that waits for the acknowledgement of a SYN or a FIN has that segment in custody: it is
queued, held for retransmission, or has been acknowledged. The four transitions into such a
state do not look at what queueing the segment returned, so that this needs room and slots,
and it needs a dequeue and a retransmission of the segment to succeed.
-/

namespace NetStack.Tcp
open NetStack.Lib

/-- A port in the state waits for the acknowledgement of a segment with the control byte. -/
def TcpState.awaits : TcpState → BitVec 8 → Bool
  | .synSent, control | .synReceived, control => flagSyn control
  | .finWait1, control | .lastAck, control => flagFin control
  | .closed, _ | .listen, _ | .established, _ | .closeWait, _ | .finWait2, _ | .timeWait, _ => false

/-- A port in the state waits for the acknowledgement of a SYN or a FIN. -/
def TcpState.awaiting : TcpState → Bool
  | .synSent | .synReceived | .finWait1 | .lastAck => true
  | .closed | .listen | .established | .closeWait | .finWait2 | .timeWait => false

/-- A segment that port `i` waits for is queued for it, held in one of its entries, or has been
    acknowledged. -/
def ControlBehind (g : Globals) (i : PortIdx) : Prop :=
  Custody i (g.ports i).incarnation
    (fun p => findParamsPort g p = some i ∧ (g.ports i).state.awaits p.control = true)
    (fun e => (g.ports i).state.awaits e.control = true) g

/-- The scan of `p` finds a SYN or FIN due that the port waits for, and cannot send it. -/
def losesControl (g : Globals) (env : TaskEnv) (p : PortIdx) : Bool :=
  (firstIdx fun j =>
    retransmitDue g.tick ((g.ports p).unacked j) &&
      (g.ports p).state.awaits ((g.ports p).unacked j).control &&
      !((env.scan p j).malloc.isSome && (env.scan p j).ipv4Accepts)).isSome

/-- A SYN or FIN that the step queues for a port finds a slot and room; one that it dequeues
    while the port waits for it finds memory and an entry; one that is due is sent again. -/
def controlKept (s : System) : Action → Bool
  | .tcpTask env =>
      match (selectInput s.g).2 with
      | .send params =>
          match findParamsPort s.g params with
          | some i =>
              !(s.g.ports i).state.awaits params.control ||
                (env.send.malloc.isSome && (findEmptyUnacked (s.g.ports i)).isSome)
          | none => true
      | .segment seg =>
          match checkSegment s.g seg with
          | .accept i =>
              (!((s.g.ports i).state == .listen && seg.syn) ||
                (slotAvailable (s.g.ports i) seg && s.g.sendQueue.length < sendQueueLength)) &&
              (!((s.g.ports i).state == .established && seg.fin) ||
                s.g.sendQueue.length + (acksOf (s.g.ports i) seg).length < sendQueueLength)
          | _ => true
      | .cmd (.createAndConnect _ _ _ _ _ _) =>
          (findUnusedPort s.g).isNone || s.g.sendQueue.length < sendQueueLength
      | .cmd (.close self other addr) =>
          match findPort s.g self other addr with
          | some i =>
              (s.g.ports i).state.awaits FIN ||
                (0 < (s.g.ports i).slots && s.g.sendQueue.length < sendQueueLength)
          | none => true
      | .scan => (firstIdx (losesControl s.g env)).isNone
      | _ => true
  | _ => true

/-- Every port that waits for a segment has it in custody, the queued one under its key. -/
structure ControlsBehind (g : Globals) : Prop where
  keys : KeysOk g
  behind : ∀ i, (g.ports i).state.awaiting = true → Custody i (g.ports i).incarnation
    (fun p => p.key = (g.ports i).key ∧ (g.ports i).state.awaits p.control = true)
    (fun e => (g.ports i).state.awaits e.control = true) g

theorem TcpState.awaiting_of_awaits {state : TcpState} {control : BitVec 8}
    (h : state.awaits control = true) : state.awaiting = true := by
  cases state <;> simp_all [awaits, awaiting]

theorem TcpState.awaits_of_awaiting {state : TcpState} (h : state.awaiting = true) :
    state.awaits (SYN + FIN) = true := by
  cases state with
  | synSent | synReceived | finWait1 | lastAck => decide
  | closed | listen | established | closeWait | finWait2 | timeWait => cases h

/-- States in which a FIN is awaited await the same. -/
theorem TcpState.awaits_finWait1 {state : TcpState} (h : state.awaits FIN = true) :
    TcpState.awaits .finWait1 = state.awaits := by
  cases state with
  | finWait1 | lastAck => rfl
  | synSent | synReceived => exact absurd h (by decide)
  | closed | listen | established | closeWait | finWait2 | timeWait => cases h

theorem TcpState.open_of_awaiting {state : TcpState} (h : state.awaiting = true) :
    state ≠ .closed ∧ state ≠ .listen := by
  cases state <;> simp_all [awaiting]

theorem TcpState.flag_of_awaits {state : TcpState} {control : BitVec 8}
    (h : state.awaits control = true) : (flagSyn control || flagFin control) = true := by
  cases state <;> simp_all [awaits]

/-- What keeps the segment that port `i` waits for out of sight of a move: the port is what it
    was, or its segment is queued. -/
def ControlMoved (g g' : Globals) (i : PortIdx) : Prop :=
  ((g'.ports i).state.awaits = (g.ports i).state.awaits ∧
    (g'.ports i).key = (g.ports i).key ∧
      (g'.ports i).incarnation = (g.ports i).incarnation) ∨
  ∃ params ∈ g'.sendQueue, params.key = (g'.ports i).key ∧
    (g'.ports i).state.awaits params.control = true

section Move
variable {s s' : System} {a : Action} {g g' : Globals}

/-- Port `k` changes and waits for nothing, or its segment is among what is queued. -/
private theorem ControlMoved.setPort {i k : PortIdx} {p : TcpPort}
    {items : List TcpTransmitParams}
    (hk : p.state.awaiting = true →
      ∃ params ∈ items, params.key = p.key ∧ p.state.awaits params.control = true)
    (hawaiting : (((g.setPort k p).queueing items).ports i).state.awaiting = true) :
    ControlMoved g ((g.setPort k p).queueing items) i := by
  by_cases hi : i = k
  · subst hi
    simp only [Globals.ports_queueing, Globals.ports_setPort, Function.update_self] at hawaiting
    obtain ⟨params, hmem, hparams⟩ := hk hawaiting
    exact .inr ⟨params, List.mem_append_right _ hmem, by simpa using hparams⟩
  · exact .inl (by simp [hi])

private theorem ControlMoved.idle {i k : PortIdx} {p : TcpPort} (hp : p.state.awaiting = false)
    (hawaiting : ((g.setPort k p).ports i).state.awaiting = true) :
    ControlMoved g (g.setPort k p) i := by
  rw [← Globals.queueing_nil (g.setPort k p)] at hawaiting ⊢
  exact ControlMoved.setPort (by simp [hp]) hawaiting

/-- Under the condition a move leaves a waiting port as it is, or queues its segment. -/
theorem Move.control (hrun : (∃ env, a = .tcpTask env) → waits s a = false → s'.tcpTask = .running)
    (hapart : keysApart s a = true) (hc : controlKept s a = true) (hm : Move s a s' g g')
    (hkeys : KeysOk g) (hkeys' : KeysOk g') {i : PortIdx}
    (hawaiting : (g'.ports i).state.awaiting = true) : ControlMoved g g' i := by
  cases hm with
  | stay | wait | push | drop | pass | resend => exact .inl ⟨rfl, rfl, rfl⟩
  | @record env params rest k j now =>
      by_cases hi : i = k
      · subst hi
        exact .inl (by simp [recordUnacked, TcpPort.key, TcpPort.incarnation])
      · exact .inl (by simp [hi])
  | reset => exact ControlMoved.idle (by simp [TcpPort.closed, TcpState.awaiting]) hawaiting
  | establish | finWait2 | timeWait => exact ControlMoved.idle (by simp [TcpState.awaiting]) hawaiting
  | listen =>
      exact ControlMoved.idle (p := { newPort _ _ _ _ _ with state := .listen })
        (by simp [TcpState.awaiting]) hawaiting
  | @takeOver k seg items hacc hstage hstate hsyn hqueues =>
      have hfind : findParamsPort (g.setPort k ((g.ports k).takenOver seg))
          (replyParams ((g.ports k).takenOver seg) seg.srcIpv4Addr (SYN + ACK)) = some k :=
        hkeys'.find (g := (g.setPort k _).queueing items) (i := k) (by
          simp [TcpPort.key, TcpTransmitParams.key, replyParams, TcpPort.takenOver])
          (by simp [TcpPort.takenOver]) (by simp [TcpPort.takenOver])
      obtain ⟨⟨⟨env, rfl⟩, hin⟩, hverdict⟩ := hacc
      simp only [controlKept, hin, hverdict, hstate, hsyn, beq_self_eq_true, Bool.and_self,
        Bool.not_true, Bool.false_or, Bool.and_eq_true, decide_eq_true_eq] at hc
      obtain ⟨⟨hslots, hroom⟩, -⟩ := hc
      have hs' : s'.tcpTask = .running := hrun ⟨env, rfl⟩ (by
        simp [waits, hin, hverdict, segmentWaits, acknowledges, hstate, hslots])
      obtain rfl := hqueues.items_eq (by simp [hs']) hfind (by simp [TcpPort.takenOver])
        (by simpa [hstage.sendQueue] using hroom)
      refine ControlMoved.setPort (fun _ => ⟨_, List.mem_singleton_self _, rfl, ?_⟩) hawaiting
      show flagSyn (SYN + ACK) = true
      decide
  | @finReply k seg items hacc hstage hstate hfin hqueues =>
      have hlisten : (s.g.ports k).state ≠ .listen := by simp [hstate]
      have hfind : findParamsPort g (replyParams (s.g.ports k) seg.srcIpv4Addr (FIN + ACK)) =
          some k := by
        apply hkeys.find
        · rw [hstage.key k]
          exact hacc.replyKey hlisten _
        · simp [hstage.state k, hstate]
        · simp [hstage.state k, hstate]
      have hkey := hacc.replyKey hlisten (FIN + ACK)
      obtain ⟨⟨⟨env, rfl⟩, hin⟩, hverdict⟩ := hacc
      simp only [controlKept, hin, hverdict, hstate, hfin, beq_self_eq_true, Bool.and_self,
        Bool.not_true, Bool.false_or, Bool.and_eq_true, decide_eq_true_eq] at hc
      obtain rfl := hqueues.items_eq not_false hfind (by simp [hstage.state k, hstate])
        (by simpa [hstage.sendQueue] using hc.2)
      -- the reply is queued before the port changes
      refine ControlMoved.setPort (p := { g.ports k with state := .lastAck })
        (fun _ => ⟨_, List.mem_singleton_self _, hkey.trans (hstage.key k).symm, ?_⟩) hawaiting
      show flagFin (FIN + ACK) = true
      decide
  | @close self other addr k items hcmd hstage hfind hqueues =>
      have hopen : ((g.setState k .finWait1).ports k).state ≠ .closed := by
        simp [Globals.setState]
      obtain ⟨⟨env, rfl⟩, hin⟩ := hcmd
      simp only [controlKept, hin, hfind, Bool.or_eq_true, Bool.and_eq_true,
        decide_eq_true_eq] at hc
      rcases hc with hfin | ⟨hslots, hroom⟩
      · -- a port that was closing already still has its FIN
        rw [← hstage.state k] at hfin
        by_cases hi : i = k
        · subst hi
          exact .inl (by simpa [Globals.setState, TcpPort.key, TcpPort.incarnation] using
            TcpState.awaits_finWait1 hfin)
        · exact .inl (by simp [Globals.setState, hi])
      · have hs' : s'.tcpTask = .running := hrun ⟨env, rfl⟩ (by
          simp [waits, hin, closeWaits, hfind]
          omega)
        obtain rfl := hqueues.items_eq (by simp [hs']) (findParamsPort_closing hstage hfind) hopen
          (by simpa [Globals.setState, hstage.sendQueue] using hroom)
        refine ControlMoved.setPort (fun _ => ⟨_, List.mem_singleton_self _,
          (finRequest_key hfind).trans (hstage.key k).symm, ?_⟩) hawaiting
        show flagFin FIN = true
        decide
  | @connect self other addr onReceive onConnect onDisconnect k port items hcmd hstage hunused
      hport hqueues =>
      subst hport
      have hfind := hkeys'.find (i := k)
        (show (synRequest (connectingPort
          (newPort self g.nextAddr onReceive onConnect onDisconnect) other addr) addr).key = _ by
          simp [TcpPort.key, TcpTransmitParams.key, synRequest, connectingPort])
        (by simp [connectingPort]) (by simp [connectingPort])
      obtain ⟨⟨env, rfl⟩, hin⟩ := hcmd
      simp only [controlKept, hin, hunused, Option.isNone_some, Bool.false_or,
        decide_eq_true_eq] at hc
      simp only [keysApart, hin, hunused, Option.isNone_some, Bool.false_or, Bool.and_eq_true,
        Option.isNone_iff_eq_none] at hapart
      have hs' : s'.tcpTask = .running := hrun ⟨env, rfl⟩ (by
        simp [waits, hin, connectWaits, hapart.2])
      obtain rfl := hqueues.items_eq (by simp [hs']) hfind (by simp [connectingPort])
        (by simpa [hstage.sendQueue] using hc)
      refine ControlMoved.setPort (g := { g with nextAddr := g.nextAddr + 1 })
        (fun _ => ⟨_, List.mem_singleton_self _, ?_, ?_⟩) hawaiting
      · simp [TcpPort.key, TcpTransmitParams.key, synRequest, connectingPort]
      · show flagSyn SYN = true
        decide

/-- Under the condition the step does not let go of the segment that port `i` waits for. -/
theorem keeps_control (hs : KeysOk s.g) (hreq : Requests Request s.g)
    (hc : controlKept s a = true) {i : PortIdx} (hawaiting : (g.ports i).state.awaiting = true) :
    Keeps s a g i
      (fun p => p.key = (g.ports i).key ∧ (g.ports i).state.awaits p.control = true)
      (fun e => (g.ports i).state.awaits e.control = true) := by
  obtain ⟨hopen, hlisten⟩ := TcpState.open_of_awaiting hawaiting
  constructor
  case send =>
      intro hstage env p ha hin ⟨hkey, hcontrol⟩
      obtain ⟨-, rest, hqueue, -⟩ := selectInput_send hin
      have hfind : findParamsPort s.g p = some i := by
        apply hs.find
        · rw [hkey, hstage.key i]
        · rwa [← hstage.state i]
        · rwa [← hstage.state i]
      have hconsumes := (hreq.sendQueue p (by simp [hqueue])).control_consumes
        (TcpState.flag_of_awaits hcontrol)
      subst ha
      rw [hstage.state i] at hcontrol
      simp only [controlKept, hin, hfind, hcontrol, Bool.not_true, Bool.false_or,
        Bool.and_eq_true, Option.isSome_iff_ne_none] at hc
      exact ⟨hc.1, hconsumes.1, hfind, hc.2⟩
  case scan =>
      intro j env hdue hcontrol
      obtain ⟨e, rfl, rfl⟩ := hdue.action
      obtain ⟨sentAt, hentry⟩ := hdue.entry
      have hstate := TcpPort.state_of_settled hdue.settled
      simp only [controlKept, hdue.input, Option.isNone_iff_eq_none, firstIdx_eq_none_iff,
        losesControl, Option.isSome_eq_false_iff] at hc
      simp only [hentry, hstate] at hcontrol
      have hkept := hc i j
      simp only [hdue.due, hcontrol, Bool.true_and, Bool.not_eq_false', Bool.and_eq_true,
        Option.isSome_iff_ne_none] at hkept
      exact hkept
  case create =>
      intro hstage hcreates
      have hunused : findUnusedPort s.g = some i := by
        cases hcreates <;> assumption
      have hclosed := (hs.closed i).mpr (findUnusedPort_some hunused)
      exact hopen ((hstage.state i).trans hclosed)
  case records =>
      intro p e ⟨_, hcontrol⟩ hrecords
      rwa [hrecords.control]
  case sentAt => exact fun _ _ h => h

/-- Under the condition every effect keeps the control segments behind their ports. -/
theorem ControlsBehind.effect (hs : KeysOk s.g) (hreq : Requests Request s.g)
    (hrun : (∃ env, a = .tcpTask env) → waits s a = false → s'.tcpTask = .running)
    (hapart : keysApart s a = true) (hc : controlKept s a = true) (he : Effect s a s' g g')
    (h : ControlsBehind g) : ControlsBehind g' := by
  obtain ⟨g₁, hm, hsame⟩ := he.move
  have hkeys₁ := hs.move hapart hm h.keys
  have hkeys' := hkeys₁.alike hsame
  refine ⟨hkeys', ?_⟩
  intro i hawaiting
  obtain ⟨hopen, -⟩ := TcpState.open_of_awaiting hawaiting
  have hlive : (g'.ports i).incarnation ≠ none := (hkeys'.incarnation i).not.mp hopen
  rw [hsame.state i] at hawaiting
  rw [hsame.state i, hsame.key i]
  rcases Move.control hrun hapart hc hm h.keys hkeys₁ hawaiting with
    ⟨hawaits, hkey, hinc⟩ | ⟨params, hmem, hparams⟩
  · rw [hawaits, hkey, hsame.incarnation i, hinc]
    have hbefore : (g.ports i).state.awaiting = true :=
      TcpState.awaiting_of_awaits (hawaits ▸ TcpState.awaits_of_awaiting hawaiting)
    exact (h.behind i hbefore).effect he (keeps_control hs hreq hc hbefore) rfl hlive
  · exact .inl ⟨params, hsame.sendQueue ▸ hmem, hparams⟩

end Move

theorem controlsBehind_boot (net : NetContext) : ControlsBehind (boot net).g :=
  ⟨keysOk_boot net, fun i => by simp [boot, TcpState.awaiting]⟩

/-- In every run whose steps keep the keys apart and do not let go of a SYN or FIN, a port that
    waits for the acknowledgement of one has it behind it. -/
theorem control_segment_behind {net : NetContext} {as : List Action} {s : System}
    (hrun : run step (boot net) as = some s)
    (hg : Guarded step (fun s a => keysApart s a && controlKept s a) (boot net) as) {i : PortIdx}
    (hawaiting : (s.g.ports i).state.awaiting = true) : ControlBehind s.g i := by
  have hinv : Requests Request s.g ∧ ControlsBehind s.g := by
    refine run_invariant (P := fun s => Requests Request s.g ∧ ControlsBehind s.g) ?_
      ⟨requests_boot net, controlsBehind_boot net⟩ hg hrun
    intro s a s' ⟨hreq, hs⟩ hc hstep
    obtain ⟨hapart, hkept⟩ := Bool.and_eq_true_iff.mp hc
    have htask : (∃ env, a = .tcpTask env) → waits s a = false → s'.tcpTask = .running := by
      rintro ⟨env, rfl⟩ hwaits
      exact (step_running_iff hstep).mpr ⟨running_of_task hstep, hwaits⟩
    exact ⟨step_requests hreq hstep, step_preserves
      (fun g g' he h => ControlsBehind.effect hs.keys hreq htask hapart hkept he h) hstep hs⟩
  obtain ⟨hopen, hlisten⟩ := TcpState.open_of_awaiting hawaiting
  rcases hinv.2.behind i hawaiting with ⟨p, hp, hkey, hcontrol⟩ | hheld
  · exact .inl ⟨p, hp, hinv.2.keys.find hkey hopen hlisten, hcontrol⟩
  · exact .inr hheld

/-- After a handshake the host closes and sends its FIN, which is lost and is retransmitted. -/
def finRetransmitted : List Action :=
  handshake peerNet.ip ++ [.tcpClosePort 80 5000 peerNet.ip, iterates, iterates] ++
    List.replicate 101 .tick ++ [iterates]

/-- The FIN is still behind the closing port. -/
theorem closing_port_has_fin :
    ∃ s, run step (boot hostNet) finRetransmitted = some s ∧
      (s.g.ports 0).state = .finWait1 ∧ ControlBehind s.g 0 := by
  obtain ⟨s, hs, hstate⟩ := run_any
    (show (run step (boot hostNet) finRetransmitted).any (fun s =>
      (s.g.ports 0).state == .finWait1) = true by decide +kernel)
  rw [beq_iff_eq] at hstate
  exact ⟨s, hs, hstate, control_segment_behind hs (by decide +kernel)
    (by simp [hstate, TcpState.awaiting])⟩

/-- After a handshake the host closes, and there is no memory when its FIN is dequeued. -/
def finDropped : List Action :=
  handshake peerNet.ip ++ [.tcpClosePort 80 5000 peerNet.ip, iterates,
    .tcpTask ⟨⟨none, true⟩, fun _ _ => ⟨none, true⟩, true⟩]

/-- The port stays in `FIN_WAIT_1` without a FIN behind it. -/
theorem closing_port_without_fin :
    ∃ s, run step (boot hostNet) finDropped = some s ∧
      (s.g.ports 0).state = .finWait1 ∧ ¬ ControlBehind s.g 0 := by
  obtain ⟨s, hs, hend⟩ := run_any
    (show (run step (boot hostNet) finDropped).any (fun s =>
      (s.g.ports 0).state == .finWait1 && s.g.sendQueue.isEmpty &&
        (firstIdx fun j => ((s.g.ports 0).unacked j).inUse).isNone &&
        s.g.log.all fun e =>
          match e with
          | .acked _ _ entry => !flagFin entry.control
          | _ => true) = true by decide +kernel)
  simp only [Bool.and_eq_true, beq_iff_eq, List.isEmpty_iff, Option.isNone_iff_eq_none,
    firstIdx_eq_none_iff, List.all_eq_true] at hend
  obtain ⟨⟨⟨hstate, hqueue⟩, hentries⟩, hlog⟩ := hend
  refine ⟨s, hs, hstate, ?_⟩
  rintro (⟨p, hp, -⟩ | ⟨j, huse, -⟩ | ⟨e, hacked, hfin⟩)
  · simp [hqueue] at hp
  · simp [hentries j] at huse
  · have hfin' : flagFin e.control = true := by simpa [hstate, TcpState.awaits] using hfin
    simpa [hfin'] using hlog _ hacked

end NetStack.Tcp
