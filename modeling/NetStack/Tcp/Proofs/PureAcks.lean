import NetStack.Tcp.Proofs.Keys
import NetStack.Tcp.Proofs.Datagram

/-!
# Pure ACKs and the send sequence number

A pure ACK carries the `seq_num` its port had when the ACK was queued, and `seq_num` advances
when a queued segment is sent. The two agree as long as no segment that consumes sequence
space is queued before an ACK of the same connection.
-/

namespace NetStack.Tcp
open NetStack.Lib

/-- A request with no payload, SYN or FIN. -/
def TcpTransmitParams.pureAck (params : TcpTransmitParams) : Bool :=
  params.dataLen == 0 && !flagSyn params.control && !flagFin params.control

theorem TcpTransmitParams.pureAck_plain {params : TcpTransmitParams}
    (h : params.pureAck = true) : consumesSequence params = false := by
  simp only [pureAck, Bool.and_eq_true, beq_iff_eq, Bool.not_eq_true'] at h
  simp [consumesSequence, seqIncrement, h]

/-- Pure ACKs are queued in order and with the current sequence number of their port, and
    have been transmitted with it. -/
structure PureAcks (g : Globals) : Prop where
  order : g.sendQueue.Pairwise fun q p =>
    consumesSequence q = true → p.pureAck = true → q.key ≠ p.key
  seqNum : ∀ p ∈ g.sendQueue, p.pureAck = true → ∀ i, (g.ports i).key = p.key →
    (g.ports i).seqNum = p.seqNum
  transmits : ∀ t ∈ transmissions g.log, t.params.pureAck = true → t.seqNum = t.portSeqNum

/-- The sequence number is that of every port with the key. -/
def seqCurrent (g : Globals) (key : Key) (seqNum : BitVec 32) : Bool :=
  (firstIdx fun i => (g.ports i).key == key && (g.ports i).seqNum != seqNum).isNone

/-- Every pure ACK in the queue that a port with the key would send has the sequence number. -/
def acksCurrent (g : Globals) (key : Key) (seqNum : BitVec 32) : Bool :=
  g.sendQueue.all fun p => !(p.pureAck && p.key == key) || p.seqNum == seqNum

/-- A pure ACK that the step queues stands behind nothing that advances its `seq_num` and
    carries that number, and a new key is that of no old pure ACK. -/
def acksInOrder (s : System) : Action → Bool
  | .tcpTask _ =>
      match (selectInput s.g).2 with
      | .segment seg =>
          match checkSegment s.g seg with
          | .accept i =>
              (!acknowledges (s.g.ports i) seg || !consumingQueued s.g (s.g.ports i).key) &&
                (!((s.g.ports i).state == .listen && seg.syn) ||
                  acksCurrent s.g ((s.g.ports i).takenOver seg).key (s.g.ports i).seqNum)
          | _ => true
      | .cmd (.createAndConnect self other addr _ _ _) =>
          (findUnusedPort s.g).isNone || acksCurrent s.g (self, other, addr) 0
      | .cmd (.createAndListen self _ _ _) =>
          (findUnusedPort s.g).isNone || acksCurrent s.g (self, 0, ipv4AllZeroes) 0
      | _ => true
  | .tcpSend _ src dst addr _ len _ =>
      (findPort s.g src dst addr).isNone || len != 0 ||
        (!consumingQueued s.g (src, dst, addr) && seqCurrent s.g (src, dst, addr) 0)
  | .resumeSender k _ =>
      match s.g.senders[k]? with
      | some t =>
          !t.params.pureAck ||
            (!consumingQueued s.g t.params.key && seqCurrent s.g t.params.key t.params.seqNum)
      | none => true
  | _ => true

namespace PureAcks
variable {g g' : Globals}

theorem alike (hsame : Alike g g') (h : PureAcks g) : PureAcks g' := by
  refine ⟨hsame.sendQueue ▸ h.order, fun p hp hpure i => ?_, hsame.transmissions ▸ h.transmits⟩
  rw [hsame.key i, hsame.seqNum i]
  exact h.seqNum p (hsame.sendQueue ▸ hp) hpure i

/-- A port changes: the pure ACKs for its new key carry its new sequence number. -/
theorem setPort (h : PureAcks g) {i : PortIdx} {p : TcpPort}
    (hp : ∀ q ∈ g.sendQueue, q.pureAck = true → p.key = q.key → p.seqNum = q.seqNum) :
    PureAcks (g.setPort i p) := by
  refine ⟨h.order, fun q hq hpure k => ?_, h.transmits⟩
  by_cases hk : k = i
  · subst hk
    simpa using hp q hq hpure
  · simpa [hk] using h.seqNum q hq hpure k

/-- A port changes and keeps key and sequence number. -/
theorem setPort_same (h : PureAcks g) {i : PortIdx} {p : TcpPort}
    (hkey : p.key = (g.ports i).key) (hseq : p.seqNum = (g.ports i).seqNum) :
    PureAcks (g.setPort i p) :=
  h.setPort fun q hq hpure hk => hseq ▸ h.seqNum q hq hpure i (hkey ▸ hk)

theorem queueing (h : PureAcks g) {items : List TcpTransmitParams} {params : TcpTransmitParams}
    (hitems : ∀ p ∈ items, p = params) (hone : items.length ≤ 1)
    (hp : params.pureAck = true → consumingQueued g params.key = false ∧
      ∀ i, (g.ports i).key = params.key → (g.ports i).seqNum = params.seqNum) :
    PureAcks (g.queueing items) := by
  refine ⟨?_, ?_, h.transmits⟩
  · refine List.pairwise_append.mpr ⟨h.order, ?_, fun q hq p hmem hconsumes hpure hkey => ?_⟩
    · match items, hone with
      | [], _ => exact .nil
      | [p], _ => exact List.pairwise_singleton _ p
    · obtain rfl := hitems p hmem
      exact consumingQueued_eq_false_iff.mp (hp hpure).1 q hq hconsumes hkey
  · intro p hmem hpure i hkey
    rcases List.mem_append.mp hmem with hmem | hmem
    · exact h.seqNum p hmem hpure i hkey
    · obtain rfl := hitems p hmem
      exact (hp hpure).2 i hkey

/-- What is queued is no pure ACK. -/
theorem queueing_control (h : PureAcks g) {B : Prop} {g₁ : Globals}
    {items : List TcpTransmitParams} {params : TcpTransmitParams}
    (hqueues : Queues B g₁ params items) (hcontrol : params.pureAck = false) :
    PureAcks (g.queueing items) :=
  h.queueing (fun p => hqueues.mem) hqueues.length_le (by simp [hcontrol])

theorem dequeue (h : PureAcks g) {params : TcpTransmitParams} {rest : List TcpTransmitParams}
    (hqueue : g.sendQueue = params :: rest) : PureAcks { g with sendQueue := rest } := by
  have horder := h.order
  rw [hqueue, List.pairwise_cons] at horder
  exact ⟨horder.2, fun p hp => h.seqNum p (hqueue ▸ List.mem_cons_of_mem params hp), h.transmits⟩

theorem allocate (h : PureAcks g) : PureAcks { g with nextAddr := g.nextAddr + 1 } :=
  ⟨h.order, h.seqNum, h.transmits⟩

theorem transmit (h : PureAcks g) {t : Transmission}
    (ht : t.params.pureAck = true → t.seqNum = t.portSeqNum) : PureAcks (g.emit (.transmit t)) := by
  refine ⟨h.order, h.seqNum, ?_⟩
  intro u hu hpure
  rw [Globals.log_emit, mem_transmissions] at hu
  rcases List.mem_append.mp hu with hu | hu
  · exact h.transmits u (mem_transmissions.mpr hu) hpure
  · obtain rfl := Event.transmit.inj (List.mem_singleton.mp hu)
    exact ht hpure

end PureAcks

/-- An entry that is in use consumes sequence space. -/
theorem Requests.entry_not_pureAck {g : Globals} (h : Requests Request g) {p : PortIdx}
    {j : UnackedIdx} (huse : ((g.ports p).unacked j).inUse = true) {params : TcpTransmitParams}
    (hcontrol : params.control = ((g.ports p).unacked j).control)
    (hlen : params.dataLen = ((g.ports p).unacked j).dataLen) : params.pureAck = false := by
  obtain ⟨q, hq, hqcontrol, hqlen, hconsumes⟩ := h.unacked p j huse
  have hconsumes := hconsumes trivial
  have hsame : params.pureAck = q.pureAck := by
    simp [TcpTransmitParams.pureAck, hcontrol, hlen, hqcontrol, hqlen]
  rw [hsame]
  by_contra hpure
  rw [TcpTransmitParams.pureAck_plain (by simpa using hpure)] at hconsumes
  cases hconsumes

theorem PureAcks.move {s s' : System} {a : Action} {g g' : Globals}
    (hreq : Requests Request s.g) (hkeys : KeysOk s.g) (hkeys' : KeysOk g)
    (hc : acksInOrder s a = true) (hm : Move s a s' g g') (h : PureAcks g) : PureAcks g' := by
  cases hm with
  | stay => exact h
  | wait => exact ⟨h.order, h.seqNum, h.transmits⟩
  | @push params hstage hwhy hroom =>
      have hqueue : g.sendQueue = s.g.sendQueue := hstage.sendQueue_eq
      have hnothing : ∀ key, consumingQueued s.g key = false → consumingQueued g key = false :=
        fun key => by simp only [consumingQueued, hqueue, imp_self]
      have hcurrent : ∀ key seqNum, seqCurrent s.g key seqNum = true →
          ∀ i, (g.ports i).key = key → (g.ports i).seqNum = seqNum := by
        intro key seqNum hcur i hkey
        rw [hstage.key i] at hkey
        simp only [seqCurrent, Option.isNone_iff_eq_none, firstIdx_eq_none_iff] at hcur
        simpa [hkey, hstage.seqNum i] using hcur i
      apply h.queueing (fun _ hp => List.mem_singleton.mp hp) (by simp)
      intro hpure
      cases hwhy with
      | @data inCallback src dst addr data len timeout i block ha hfind hinc =>
          subst ha
          have hlen : len = 0 := by
            simp only [TcpTransmitParams.pureAck, tcpSendParams, Bool.and_eq_true, beq_iff_eq]
              at hpure
            exact hpure.1.1
          have hkey : (tcpSendParams (s.g.ports i) block len).key = (src, dst, addr) :=
            (findPort_eq_some_iff.mp hfind).1
          simp only [acksInOrder, hfind, hlen, Option.isNone_some, bne_self_eq_false,
            Bool.false_or, Bool.and_eq_true, Bool.not_eq_true'] at hc
          rw [hkey]
          exact ⟨hnothing _ hc.1, hcurrent _ _ hc.2⟩
      | resumed ha ht =>
          subst ha
          simp only [acksInOrder, ht, hpure, Bool.not_true, Bool.false_or, Bool.and_eq_true,
            Bool.not_eq_true'] at hc
          exact ⟨hnothing _ hc.1, hcurrent _ _ hc.2⟩
      | @ack i seg hacc hacks =>
          have hlisten : (s.g.ports i).state ≠ .listen := by
            simp only [acknowledges, Bool.and_eq_true, bne_iff_ne] at hacks
            exact hacks.2
          have hkey := hacc.replyKey hlisten ACK
          have hopen := hacc.live
          obtain ⟨⟨⟨env, rfl⟩, hin⟩, hverdict⟩ := hacc
          simp only [acksInOrder, hin, hverdict, hacks, Bool.not_true, Bool.false_or,
            Bool.and_eq_true, Bool.not_eq_true'] at hc
          rw [hkey]
          refine ⟨hnothing _ hc.1, ?_⟩
          intro k hk
          obtain rfl : k = i := hkeys.unique ((hstage.key k).symm.trans hk) hopen hlisten
          exact hstage.seqNum k
  | drop _ _ _ hqueue => exact h.dequeue hqueue
  | @pass env params rest i t _ _ _ hqueue hfind hplain ht =>
      apply (h.dequeue hqueue).transmit
      intro hpure
      rw [ht.params] at hpure
      rw [ht.seqNum, ht.portSeqNum]
      exact (h.seqNum params (by simp [hqueue]) hpure i (findParamsPort_key hfind)).symm
  | @record env params rest i j now t _ _ _ hqueue hfind hconsumes ht =>
      refine ((h.dequeue hqueue).setPort fun q hq hpure hkey => ?_).transmit
        fun _ => ht.seqNum.trans ht.portSeqNum.symm
      -- no pure ACK of the connection is behind the request
      have horder := h.order
      rw [hqueue, List.pairwise_cons] at horder
      exact absurd ((findParamsPort_key hfind).symm.trans hkey) (horder.1 q hq hconsumes hpure)
  | resend _ _ huse hcontrol hlen ht =>
      apply h.transmit
      intro hpure
      rw [ht.params, hreq.entry_not_pureAck huse hcontrol hlen] at hpure
      cases hpure
  | reset =>
      refine h.setPort fun q hq _ hkey => absurd ?_ (hkeys'.sendQueue q hq)
      exact (congrArg Prod.fst hkey).symm
  | @takeOver i seg items hacc hstage hstate hsyn hqueues =>
      refine PureAcks.queueing_control (h.setPort fun q hq hpure hkey => ?_) hqueues
        (by simp [TcpTransmitParams.pureAck, replyParams]; decide)
      obtain ⟨⟨⟨env, rfl⟩, hin⟩, hverdict⟩ := hacc
      simp only [acksInOrder, hin, hverdict, hstate, hsyn, beq_self_eq_true, Bool.and_self,
        Bool.not_true, Bool.false_or, Bool.and_eq_true] at hc
      have hself : (g.ports i).selfPortNum = (s.g.ports i).selfPortNum :=
        TcpPort.selfPortNum_of_settled (hstage.settled i)
      have hkey' : q.key = ((s.g.ports i).takenOver seg).key := by
        rw [← hkey]
        simp [TcpPort.key, TcpPort.takenOver, hself]
      have hcur := List.all_eq_true.mp hc.2 q (by simpa [hstage.sendQueue] using hq)
      simp only [hpure, hkey', beq_self_eq_true, Bool.and_self, Bool.not_true, Bool.false_or,
        beq_iff_eq] at hcur
      exact (hstage.seqNum i).trans hcur.symm
  | establish | finWait2 | timeWait => exact h.setPort_same rfl rfl
  | finReply _ _ _ _ hqueues =>
      refine PureAcks.setPort_same (h.queueing_control hqueues ?_) rfl rfl
      simp [TcpTransmitParams.pureAck, replyParams]; decide
  | close _ _ _ hqueues =>
      apply PureAcks.queueing_control (h.setPort_same (by rfl) (by rfl)) hqueues
      simp [TcpTransmitParams.pureAck, finRequest]; decide
  | @listen self onReceive onConnect onDisconnect i hcmd hstage hunused =>
      obtain ⟨⟨env, rfl⟩, hin⟩ := hcmd
      apply h.allocate.setPort
      intro q hq hpure hkey
      simp only [acksInOrder, hin, hunused, Option.isNone_some, Bool.false_or] at hc
      have hcur := List.all_eq_true.mp hc q (by simpa [hstage.sendQueue] using hq)
      have hkey' : q.key = (self, 0, ipv4AllZeroes) := hkey.symm
      simp only [hpure, hkey', beq_self_eq_true, Bool.and_self, Bool.not_true, Bool.false_or,
        beq_iff_eq] at hcur
      exact hcur.symm
  | @connect self other addr onReceive onConnect onDisconnect i port items hcmd hstage hunused
      hport hqueues =>
      obtain ⟨⟨env, rfl⟩, hin⟩ := hcmd
      subst hport
      refine PureAcks.queueing_control (h.allocate.setPort fun q hq hpure hkey => ?_) hqueues
        (by simp [TcpTransmitParams.pureAck, synRequest]; decide)
      simp only [acksInOrder, hin, hunused, Option.isNone_some, Bool.false_or] at hc
      have hcur := List.all_eq_true.mp hc q (by simpa [hstage.sendQueue] using hq)
      have hkey' : q.key = (self, other, addr) := hkey.symm
      simp only [hpure, hkey', beq_self_eq_true, Bool.and_self, Bool.not_true, Bool.false_or,
        beq_iff_eq] at hcur
      exact hcur.symm

theorem pureAcks_boot (net : NetContext) : PureAcks (boot net).g :=
  ⟨by simp [boot], by simp [boot], by simp [boot, transmissions]⟩

/-- In every run whose steps queue pure ACKs in order and keep the keys apart, every segment
    with no payload, SYN or FIN is transmitted with the `seq_num` of its port. -/
theorem pureAck_seqNum {net : NetContext} {as : List Action} {s : System}
    (hrun : run step (boot net) as = some s)
    (hg : Guarded step (fun s a => keysApart s a && acksInOrder s a) (boot net) as)
    {t : Transmission} (ht : .transmit t ∈ s.g.log) (hpure : t.params.pureAck = true) :
    t.seqNum = t.portSeqNum :=
  have hinv : KeysOk s.g ∧ PureAcks s.g :=
    moves_invariant (P := fun g => KeysOk g ∧ PureAcks g) ⟨keysOk_boot net, pureAcks_boot net⟩
      (fun hsame h => ⟨h.1.alike hsame, h.2.alike hsame⟩)
      (fun _ _ _ _ _ hreq hs hc hm h =>
        have hc := Bool.and_eq_true_iff.mp hc
        ⟨hs.1.move hc.1 hm h.1, h.2.move hreq hs.1 h.1 hc.2 hm⟩) hg hrun
  hinv.2.transmits t (mem_transmissions.mpr ht) hpure

/-- After a handshake a segment with data is received and acknowledged. -/
def dataAcknowledged : List Action :=
  handshake peerNet.ip ++ [arrives peerNet.ip 5000 80 1 1 (ACK + PSH) [42], iterates, iterates]

/-- The ACK of the data carries the current sequence number. -/
theorem pureAck_seqNum_data :
    ∃ s t, run step (boot hostNet) dataAcknowledged = some s ∧ .transmit t ∈ s.g.log ∧
      t.params.pureAck = true ∧ t.seqNum = t.portSeqNum := by
  obtain ⟨s, hs, hend⟩ := run_any
    (show (run step (boot hostNet) dataAcknowledged).any (fun s =>
      (transmissions s.g.log).any fun t => t.params.pureAck) = true by decide +kernel)
  obtain ⟨t, ht, hpure⟩ := List.any_eq_true.mp hend
  exact ⟨s, t, hs, mem_transmissions.mp ht, hpure,
    pureAck_seqNum hs (by decide +kernel) (mem_transmissions.mp ht) hpure⟩

/-- After a handshake a segment with data arrives, and the application sends three bytes
    before `tcp_task` processes it. -/
def dataCrossing : List Action :=
  handshake peerNet.ip ++ [arrives peerNet.ip 5000 80 1 1 (ACK + PSH) [42],
    .tcpSend false 80 5000 peerNet.ip (some fun _ => 7) 3 portMaxDelay, iterates, iterates, iterates]

/-- The ACK is sent after the data with the sequence number from before it. -/
theorem pureAck_behind_data :
    ∃ s t, run step (boot hostNet) dataCrossing = some s ∧ .transmit t ∈ s.g.log ∧
      t.params.pureAck = true ∧ t.seqNum ≠ t.portSeqNum := by
  obtain ⟨s, hs, hend⟩ := run_any
    (show (run step (boot hostNet) dataCrossing).any (fun s =>
      (transmissions s.g.log).any fun t => t.params.pureAck && t.seqNum != t.portSeqNum) = true by
        decide +kernel)
  obtain ⟨t, ht, hpure⟩ := List.any_eq_true.mp hend
  simp only [Bool.and_eq_true, bne_iff_ne] at hpure
  exact ⟨s, t, hs, mem_transmissions.mp ht, hpure⟩

end NetStack.Tcp
