import NetStack.Lib.Streams
import NetStack.Tcp.Proofs.Delivery
import NetStack.Tcp.Proofs.Inbox
import NetStack.Tcp.Proofs.Keys
import NetStack.Tcp.Proofs.SentTiles

/-!
# What a port reads of a stream

From the SYN of its peer on a port takes the segments of the peer's stream one behind the other,
whatever the network loses, repeats and reorders, and hands the bytes of each to the
application. Only bytes that come before the handshake is over are taken and not handed on.
-/

namespace NetStack.Tcp
open NetStack.Lib

/-- The bytes that an event hands to `on_receive` for incarnation `n` of port `i`. -/
def Event.received? (i : PortIdx) (n : Nat) : Event → Option (List (BitVec 8))
  | .onReceive j m buffer offset dataLen =>
      if j = i ∧ m = some n then some (buffer.load offset.toNat dataLen.toNat) else none
  | _ => none

/-- The bytes that incarnation `n` of port `i` has handed to its application. -/
def received (log : List Event) (i : PortIdx) (n : Nat) : List (BitVec 8) :=
  (log.filterMap (Event.received? i n)).flatten

theorem received_append (log l : List Event) (i : PortIdx) (n : Nat) :
    received (log ++ l) i n = received log i n ++ received l i n := by
  rw [received, List.filterMap_append, List.flatten_append]
  rfl

/-! ### What a step hands on -/

section Step
variable {s s' : System} {a : Action} {i : PortIdx} {n : Nat}

/-- Only an established port with a segment hands anything on. -/
theorem step_received (h : step s a = some s')
    (hnone : ∀ seg, Accepts s a i seg → (s.g.ports i).state = .established →
      (s.g.ports i).incarnation ≠ some n) : received s'.g.log i n = received s.g.log i n := by
  obtain ⟨l, hlog, hlogs⟩ := step_logGrows h
  have hnil : received l i n = [] := by
    rw [received, List.filterMap_eq_nil_iff.mpr, List.flatten_nil]
    intro e he
    cases hlogs e he with
    | quiet hquiet => cases e <;> simp_all [Event.quiet, Event.received?]
    | @onReceive j seg hacc hstate =>
        have hother : ¬ (j = i ∧ (s.g.ports j).incarnation = some n) := by
          rintro ⟨rfl, hinc⟩
          exact hnone seg hacc hstate hinc
        simp only [Event.received?, if_neg hother]
    | queued | transmit | acked | reset | onConnect | onDisconnect => rfl
  rw [hlog, received_append, hnil, List.append_nil]

/-- What a step hands on of a segment, it hands on as often as it delivers its chunk. -/
theorem Accepts.received_deliveries {seg : Segment} (hacc : Accepts s a i seg)
    (h : step s a = some s') (hinc : (s.g.ports i).incarnation = some n) :
    ∃ k, deliveries s'.g.log i = deliveries s.g.log i ++
        List.replicate k ⟨seg.header.seqNum, seg.dataLength.setWidth 32⟩ ∧
      received s'.g.log i n = received s.g.log i n ++ (List.replicate k seg.tile.bytes).flatten := by
  obtain ⟨l, hlog, hlogs⟩ := step_logGrows h
  rw [hlog, deliveries_append, received_append]
  suffices hcount : ∃ k, deliveries l i =
      List.replicate k ⟨seg.header.seqNum, seg.dataLength.setWidth 32⟩ ∧
      l.filterMap (Event.received? i n) = List.replicate k seg.tile.bytes by
    obtain ⟨k, hdeliveries, hreceived⟩ := hcount
    exact ⟨k, by rw [hdeliveries], by rw [← hreceived]; rfl⟩
  clear hlog
  induction l with
  | nil => exact ⟨0, rfl, rfl⟩
  | cons e l ih =>
      obtain ⟨k, hdeliveries, hreceived⟩ := ih fun e he => hlogs e (List.mem_cons_of_mem _ he)
      have hevent : e.delivery? i = none ∧ e.received? i n = none ∨
          e.delivery? i = some ⟨seg.header.seqNum, seg.dataLength.setWidth 32⟩ ∧
            e.received? i n = some seg.tile.bytes := by
        cases hlogs e List.mem_cons_self with
        | quiet hquiet => cases e <;> simp_all [Event.quiet, Event.delivery?, Event.received?]
        | @onReceive j seg' hacc' _ =>
            by_cases hj : j = i
            · subst hj
              have hsame : seg' = seg := by
                have hinput := hacc'.processes.2.symm.trans hacc.processes.2
                exact TaskInput.segment.inj hinput
              subst hsame
              exact .inr (by simp [Event.delivery?, Event.received?, hinc, Segment.header,
                Segment.tile])
            · exact .inl (by simp [Event.delivery?, Event.received?, hj])
        | queued | transmit | acked | reset | onConnect | onDisconnect => exact .inl ⟨rfl, rfl⟩
      rcases hevent with ⟨hno, hno'⟩ | ⟨hyes, hyes'⟩
      · refine ⟨k, ?_, ?_⟩
        · rw [deliveries, List.filterMap_cons_none hno]
          exact hdeliveries
        · rw [List.filterMap_cons_none hno']
          exact hreceived
      · refine ⟨k + 1, ?_, ?_⟩
        · rw [deliveries, List.filterMap_cons_some hyes, List.replicate_succ]
          exact congrArg _ hdeliveries
        · rw [List.filterMap_cons_some hyes', List.replicate_succ, hreceived]

/-- Where port `i` in the middle of a step has its key from: from the state before the step, or
    from the SYN that it has taken. -/
def KeyFrom (s : System) (a : Action) (i : PortIdx) (p : TcpPort) : Prop :=
  p.key = (s.g.ports i).key ∧ ((s.g.ports i).state = .listen → p.state ≠ .synReceived) ∨
    ∃ seg, Accepts s a i seg ∧ p.key = seg.key

/-- What a step makes of an incarnation of port `i`: it keeps its callback, and its key but for
    the SYN that a listening port takes; a new one does not receive yet. -/
structure Continues (s : System) (a : Action) (i : PortIdx) (n : Nat) (p : TcpPort) : Prop where
  onReceive : n < s.g.nextAddr → p.onReceive = (s.g.ports i).onReceive
  key : n < s.g.nextAddr → KeyFrom s a i p
  created : s.g.nextAddr ≤ n → p.state.receiving = false

/-- A port changes to a state that a step can give it, and keeps the rest. -/
theorem Continues.keep {p p' : TcpPort} (hreceive : p'.onReceive = p.onReceive)
    (hkey : p'.key = p.key)
    (hstate : p'.state = p.state ∨ n < s.g.nextAddr ∧ p'.state ≠ .synReceived)
    (h : Continues s a i n p) : Continues s a i n p' := by
  refine ⟨fun hn => hreceive.trans (h.onReceive hn), fun hn => ?_, fun hn => ?_⟩
  · rcases h.key hn with ⟨hsame, hsyn⟩ | hseg
    · refine .inl ⟨hkey.trans hsame, fun hlisten => ?_⟩
      rcases hstate with hstate | ⟨-, hstate⟩
      · exact hstate ▸ hsyn hlisten
      · exact hstate
    · rw [KeyFrom, hkey]
      exact .inr hseg
  · rcases hstate with hstate | ⟨hlt, -⟩
    · rw [hstate]
      exact h.created hn
    · omega

theorem step_continues (h : step s a = some s')
    (hfresh : ∀ m, (s.g.ports i).incarnation = some m → m < s.g.nextAddr)
    (hinc : (s'.g.ports i).incarnation = some n) :
    Continues s a i n (s'.g.ports i) := by
  have hstart : ∀ m, (s.g.ports i).incarnation = some m → Continues s a i m (s.g.ports i) := by
    intro m hm
    have hlt := hfresh m hm
    exact ⟨fun _ => rfl, fun _ => .inl ⟨rfl, fun hlisten => by simp [hlisten]⟩, fun hle => by omega⟩
  refine (step_moves (P := fun g => s.g.nextAddr ≤ g.nextAddr ∧
    ((g.ports i).incarnation = some n → Continues s a i n (g.ports i))) ?_ ?_ h
    ⟨le_rfl, hstart n⟩).2 hinc
  · rintro g g' hsame ⟨hle, hg⟩
    refine ⟨hle.trans hsame.nextAddr, fun hinc' => ?_⟩
    exact (hg (hsame.incarnation i ▸ hinc')).keep
      (TcpPort.settled_field (hsame.settled i) TcpPort.onReceive fun _ => rfl) (hsame.key i)
      (.inl (hsame.state i))
  · rintro g g' hm ⟨hle, hg⟩
    have hport : ∀ {k : PortIdx} {p : TcpPort}, (i = k → p.incarnation = some n →
          Continues s a i n p) → (Function.update g.ports k p i).incarnation = some n →
        Continues s a i n (Function.update g.ports k p i) := by
      intro k p hp hinc'
      by_cases hk : i = k
      · subst hk
        simp only [Function.update_self] at hinc' ⊢
        exact hp rfl hinc'
      · simp only [Function.update_of_ne hk] at hinc' ⊢
        exact hg hinc'
    -- a state that a stage of the step gives a port, an incarnation of the step's start gets
    have hold : ∀ {k : PortIdx} {acks : List TcpTransmitParams}, Stage s.g acks g → i = k →
        (g.ports k).incarnation = some n → n < s.g.nextAddr := by
      rintro k acks hstage rfl hinc'
      exact hfresh n (hstage.incarnation i ▸ hinc')
    cases hm with
    | stay | wait | push | drop | pass | resend => exact ⟨hle, hg⟩
    | record =>
        refine ⟨hle, hport ?_⟩
        rintro rfl hinc'
        exact Continues.keep (p := g.ports i) rfl rfl (.inl rfl) (hg hinc')
    | establish _ hstage | finWait2 _ hstage | timeWait _ hstage | finReply _ hstage
    | close _ hstage =>
        refine ⟨hle, hport fun hk hinc' => ?_⟩
        have hlt := hold hstage hk hinc'
        subst hk
        exact Continues.keep (p := g.ports i) rfl rfl (.inr ⟨hlt, by simp⟩) (hg hinc')
    | reset =>
        refine ⟨hle, hport ?_⟩
        rintro rfl hinc'
        simp [TcpPort.closed, TcpPort.incarnation] at hinc'
    | @takeOver k seg items hacc hstage hstate =>
        refine ⟨hle, hport fun hk hinc' => ?_⟩
        have hlt := hold hstage hk hinc'
        subst hk
        have hself : (g.ports i).selfPortNum = seg.header.dstPort :=
          (TcpPort.selfPortNum_of_settled (hstage.settled i)).trans hacc.selfPortNum
        refine ⟨fun hn => (hg hinc').onReceive hn, fun _ => .inr ⟨seg, hacc, ?_⟩, fun hn => ?_⟩
        · simp [TcpPort.key, TcpPort.takenOver, Segment.key, hself]
        · omega
    | listen =>
        refine ⟨hle.trans (Nat.le_succ _), hport ?_⟩
        rintro rfl hinc'
        have hnew : g.nextAddr = n := by
          simpa [newPort, TcpPort.incarnation, CountingSemaphore.create] using hinc'
        exact ⟨fun hn => by omega, fun hn => by omega, fun _ => rfl⟩
    | connect _ _ _ hp =>
        subst hp
        refine ⟨hle.trans (Nat.le_succ _), hport ?_⟩
        rintro rfl hinc'
        have hnew : g.nextAddr = n := by
          simpa [connectingPort, newPort, TcpPort.incarnation, CountingSemaphore.create]
            using hinc'
        exact ⟨fun hn => by omega, fun hn => by omega, fun _ => rfl⟩

end Step

/-! ### What a port takes of a stream -/

theorem done_of_running {o : Outcome Unit} {s' : System} (h : afterTask o = some s')
    (hrunning : s'.tcpTask = .running) : o = .done s'.g () := by
  cases o with
  | done g u => exact Option.some.inj h ▸ rfl
  | blocked g on =>
      obtain rfl := Option.some.inj h
      cases hrunning
  | undefined => cases h

section State
variable {g g' : Globals} {i : PortIdx} {seg : Segment}

theorem ports_deliverData (g : Globals) (i : PortIdx) (seg : Segment) :
    (deliverData g i seg).ports = g.ports := by
  unfold deliverData
  split
  · split <;> rfl
  · rfl

theorem ackNum_inputSynReceived (g : Globals) (i : PortIdx) (seg : Segment) :
    ((inputSynReceived g i seg).ports i).ackNum = (g.ports i).ackNum := by
  unfold inputSynReceived
  split_ifs
  · rfl
  · rfl
  · rw [ports_callOnConnect]
    simp [Globals.setState]

theorem inputEstablished_done (h : inputEstablished g i seg = .done g' ()) :
    (g'.ports i).ackNum = (g.ports i).ackNum ∧ ((g.ports i).onReceive.isSome = true →
      deliveries g'.log i = deliveries g.log i ++ seg.payload) := by
  unfold inputEstablished at h
  split at h
  case isTrue =>
      cases hr : tcpEnqueueReliable g (replyParams (g.ports i) seg.srcIpv4Addr (FIN + ACK))
          portMaxDelay with
      | undefined => simp [hr, Outcome.bind] at h
      | blocked => simp [hr, Outcome.bind] at h
      | done g₁ r =>
          rw [hr] at h
          obtain ⟨rfl, -⟩ := Outcome.done.inj h
          have henq := tcpEnqueueReliable_done hr
          have hafter := henq.receiver i
          simp only [TcpPort.receiver, Prod.mk.injEq] at hafter
          refine ⟨?_, fun hreceive => ?_⟩
          · rw [ports_deliverData]
            simpa [Globals.setState] using hafter.2.2.1
          · have hreceive' : ((g₁.setState i .lastAck).ports i).onReceive.isSome = true := by
              simpa [Globals.setState, hafter.2.1] using hreceive
            rw [(deliverData_spec seg hreceive').2, Globals.setState, Globals.log_setPort,
              henq.deliveries i]
  case isFalse =>
      obtain ⟨rfl, -⟩ := Outcome.done.inj h
      exact ⟨by rw [ports_deliverData], fun hreceive => (deliverData_spec seg hreceive).2⟩

theorem inputEstablished_blocked {on : Resource} (h : inputEstablished g i seg = .blocked g' on) :
    g' = g := by
  unfold inputEstablished at h
  split at h
  case isTrue =>
      cases hr : tcpEnqueueReliable g (replyParams (g.ports i) seg.srcIpv4Addr (FIN + ACK))
          portMaxDelay with
      | blocked g₁ on' =>
          rw [hr] at h
          obtain ⟨rfl, -⟩ := Outcome.blocked.inj h
          exact (tcpEnqueueReliable_blocked hr).1
      | done | undefined => simp [hr, Outcome.bind] at h
  case isFalse => cases h

theorem inputLastAck_done (h : inputLastAck g i seg = .done g' ()) :
    (g'.ports i).incarnation = none ∨ (g'.ports i).ackNum = (g.ports i).ackNum := by
  unfold inputLastAck at h
  split_ifs at h
  · exact .inr ((Outcome.done.inj h).1 ▸ rfl)
  · exact .inr ((Outcome.done.inj h).1 ▸ rfl)
  · left
    unfold callOnDisconnect at h
    split at h
    · obtain ⟨unacked, -, hports⟩ := (tcpResetPort_spec g i).ports
      rw [← (Outcome.done.inj h).1, Globals.ports_emit, hports]
      simp [TcpPort.incarnation]
    · cases h

/-- The switch on the state of a receiving port leaves its `ack_num` alone. -/
theorem inputState_ackNum (h : inputState g i seg = .done g' ())
    (hstate : (g.ports i).state.receiving = true) :
    (g'.ports i).incarnation = none ∨ (g'.ports i).ackNum = (g.ports i).ackNum := by
  cases hs : (g.ports i).state with
  | synReceived =>
      simp only [inputState, hs] at h
      exact .inr ((Outcome.done.inj h).1 ▸ ackNum_inputSynReceived g i seg)
  | established =>
      simp only [inputState, hs] at h
      exact .inr (inputEstablished_done h).1
  | lastAck =>
      simp only [inputState, hs] at h
      exact inputLastAck_done h
  | closed | listen | synSent | finWait1 | closeWait | finWait2 | timeWait =>
      simp [hs, TcpState.receiving] at hstate

end State

theorem TcpPort.answered_fields (p : TcpPort) (seg : Segment) :
    (p.answered seg).state = p.state ∧ (p.answered seg).onReceive = p.onReceive := by
  unfold answered
  split <;> exact ⟨rfl, rfl⟩

section Accepted
variable {s s' : System} {a : Action} {i : PortIdx} {seg : Segment}

/-- A receiving port that `tcp_task` does not get stuck on goes on from the number it answers. -/
theorem Accepts.ackNum_answered (hacc : Accepts s a i seg) (hstep : step s a = some s')
    (hrunning : s'.tcpTask = .running) (hstate : (s.g.ports i).state.receiving = true) :
    (s'.g.ports i).incarnation = none ∨
      (s'.g.ports i).ackNum = ((s.g.ports i).answered seg).ackNum := by
  obtain ⟨g, hg, -, h'⟩ := (hacc.answered hstep).resolve_left fun hstuck => hstuck.2.1 hrunning
  simp only [TcpPort.receiver, Prod.mk.injEq] at hg
  rw [← hg.2.2.1]
  refine inputState_ackNum (done_of_running h' hrunning) ?_
  rwa [hg.1, (TcpPort.answered_fields _ seg).1]

/-- An established port hands on the payload of a segment, unless `tcp_task` gets stuck on it. -/
theorem Accepts.deliveries_established (hacc : Accepts s a i seg) (hstep : step s a = some s')
    (hstate : (s.g.ports i).state = .established)
    (hreceive : (s.g.ports i).onReceive.isSome = true) :
    deliveries s'.g.log i = deliveries s.g.log i ∧ s'.tcpTask ≠ .running ∨
      deliveries s'.g.log i = deliveries s.g.log i ++ seg.payload := by
  rcases hacc.answered hstep with ⟨-, hstuck, -, hlog⟩ | ⟨g, hg, hlog, h'⟩
  · exact .inl ⟨hlog, hstuck⟩
  simp only [TcpPort.receiver, Prod.mk.injEq] at hg
  obtain ⟨hsame, hcallback⟩ := (s.g.ports i).answered_fields seg
  simp only [inputState, hg.1.trans (hsame.trans hstate)] at h'
  cases hr : inputEstablished g i seg with
  | undefined => simp [hr, afterTask] at h'
  | blocked g' on =>
      rw [hr] at h'
      obtain rfl := Option.some.inj h'
      exact .inl ⟨(inputEstablished_blocked hr).symm ▸ hlog, by simp⟩
  | done g' u =>
      rw [hr] at h'
      rw [afterTask_done h', ← hlog]
      exact .inr ((inputEstablished_done hr).2 (by rw [hg.2.1, hcallback]; exact hreceive))

end Accepted

/-- Port `p` has taken the tiles `consumed`, which follow one another from a SYN on, and handed
    their bytes on; as long as it receives and `tcp_task` runs, it goes on behind them. -/
structure Reads (tiles : List Tile) (running : Prop) (p : TcpPort) (bytes : List (BitVec 8))
    (irs : BitVec 32) (consumed : List Tile) : Prop where
  mem : ∀ tile ∈ consumed, tile ∈ tiles
  inOrder : Contiguous irs (consumed.map (·.space))
  syn : ∀ tile ∈ consumed.head?, flagSyn tile.control = true
  bytes : bytes = streamBytes consumed
  next : p.state.receiving = true → running →
    consumed ≠ [] ∧ p.ackNum = irs + totalLength (consumed.map (·.space))

namespace Reads
variable {tiles consumed : List Tile} {running running' : Prop} {p p' : TcpPort}
  {bytes bytes' : List (BitVec 8)} {irs : BitVec 32} {seg : Segment}

theorem nothing (hstate : p.state.receiving = false) : Reads tiles running p [] irs [] :=
  ⟨by simp, trivial, by simp, rfl, fun h => by simp [hstate] at h⟩

/-- A port that has stopped receiving keeps what it has taken. -/
theorem stop (h : Reads tiles running p bytes irs consumed)
    (hstop : ¬ (p'.state.receiving = true ∧ running')) :
    Reads tiles running' p' bytes irs consumed :=
  ⟨h.mem, h.inOrder, h.syn, h.bytes, fun hstate hrunning => absurd ⟨hstate, hrunning⟩ hstop⟩

theorem congr (h : Reads tiles running p bytes irs consumed) (hrunning : running' → running)
    (hp : p'.receiver = p.receiver) : Reads tiles running' p' bytes irs consumed := by
  obtain ⟨hstate, -, hack, -⟩ : p'.state = p.state ∧ p'.onReceive = p.onReceive ∧
      p'.ackNum = p.ackNum ∧ p'.incarnation = p.incarnation := by
    simpa [TcpPort.receiver] using hp
  refine ⟨h.mem, h.inOrder, h.syn, h.bytes, fun hreceiving hr => ?_⟩
  rw [hack]
  exact h.next (hstate ▸ hreceiving) (hrunning hr)

/-- The SYN of the stream is the first tile that a port takes. -/
theorem start (hseg : OfStream tiles seg) (hsyn : seg.syn = true)
    (hack : p.ackNum = seg.header.seqNum + 1) :
    Reads tiles running p [] seg.header.seqNum [seg.tile] := by
  have hlen : seg.dataLength = 0 := hseg.bare (by simp [hsyn])
  have hinc : seg.sequenceIncrement = 1 := by simp [Segment.sequenceIncrement, hlen, hsyn]
  constructor
  · simpa using hseg.tile (by simp [hinc])
  · exact ⟨rfl, trivial⟩
  · rintro tile ⟨⟩
    exact hsyn
  · simp [streamBytes, Segment.tile, hlen, Memory.load]
  · intro _ _
    refine ⟨List.cons_ne_nil _ _, ?_⟩
    rw [hack]
    simp [totalLength, Segment.tile, hinc]

/-- A segment in sequence that the port answers is the next tile. -/
theorem take (h : Reads tiles running p bytes irs consumed) (hstate : p.state.receiving = true)
    (hrunning : running) (hseq : seg.header.seqNum = p.ackNum) (hseg : OfStream tiles seg)
    (hack : running' → p'.state.receiving = true → p'.ackNum = (p.answered seg).ackNum)
    (hbytes : bytes' = bytes ++ if acknowledges p seg then seg.tile.bytes else []) :
    ∃ consumed', Reads tiles running' p' bytes' irs consumed' := by
  obtain ⟨hne, hnext⟩ := h.next hstate hrunning
  cases hacks : acknowledges p seg with
  | true =>
      have hinc : seg.sequenceIncrement ≠ 0 := by
        intro hzero
        simp [acknowledges, hzero] at hacks
      refine ⟨consumed ++ [seg.tile], ?_, ?_, ?_, ?_, ?_⟩
      · exact List.forall_mem_append.mpr ⟨h.mem, by simpa using hseg.tile hinc⟩
      · rw [List.map_append]
        exact contiguous_concat.mpr ⟨h.inOrder, hseq.trans hnext⟩
      · rw [List.head?_append_of_ne_nil _ hne]
        exact h.syn
      · rw [hbytes, hacks, if_pos rfl, h.bytes]
        simp [streamBytes]
      · intro hreceiving hr
        refine ⟨by simp, ?_⟩
        rw [hack hr hreceiving, TcpPort.answered, if_pos hacks, List.map_append, List.map_singleton,
          totalLength_concat, ← add_assoc, ← hnext, ← hseq]
        rfl
  | false =>
      refine ⟨consumed, h.mem, h.inOrder, h.syn, ?_, ?_⟩
      · rw [hbytes, hacks, h.bytes]
        simp
      · intro hreceiving hr
        refine ⟨hne, ?_⟩
        rw [hack hr hreceiving, TcpPort.answered, if_neg (by simp [hacks])]
        exact hnext

end Reads

/-- Port `i` takes no bytes before its handshake is over. -/
def bareHandshake (i : PortIdx) (s : System) : Action → Bool
  | .tcpTask _ =>
      match (selectInput s.g).2 with
      | .segment seg =>
          match checkSegment s.g seg with
          | .accept k => k != i || (s.g.ports i).state != .synReceived || seg.dataLength == 0
          | _ => true
      | _ => true
  | _ => true

section Accepted
variable {s s' : System} {a : Action} {i : PortIdx} {seg : Segment} {n : Nat} {tiles : List Tile}

theorem Accepts.unique {seg' : Segment} (hacc : Accepts s a i seg) (hacc' : Accepts s a i seg') :
    seg' = seg :=
  TaskInput.segment.inj (hacc'.processes.2.symm.trans hacc.processes.2)

theorem Accepts.runs (hacc : Accepts s a i seg) (hstep : step s a = some s') :
    s.tcpTask = .running := by
  obtain ⟨env, rfl⟩ := hacc.processes.1
  exact running_of_task hstep

/-- A port that has not heard of its peer stays as it is, or takes the peer's SYN. -/
theorem Accepts.unheard (hacc : Accepts s a i seg) (hstep : step s a = some s')
    (hstate : (s.g.ports i).state = .listen ∨ (s.g.ports i).state = .synSent) :
    (s'.g.ports i).state = (s.g.ports i).state ∨ seg.syn = true ∧ Enters s a s' i seg := by
  rcases step_state hstep i with hsame | htransition
  · exact .inl hsame
  · right
    generalize hto : (s'.g.ports i).state = target at htransition
    cases htransition with
    | @takeOver seg' hacc' hlisten hsyn =>
        obtain rfl := hacc.unique hacc'
        exact ⟨hsyn, hacc, .inl ⟨hlisten, hto⟩⟩
    | @establish seg' hest =>
        obtain rfl := hacc.unique hest.accepts
        rcases hest.state with ⟨hsent, hsyn⟩ | ⟨hreceived, -⟩
        · exact ⟨hsyn, hacc, .inr ⟨hsent, hto⟩⟩
        · simp [hreceived] at hstate
    | finReply _ hcase | finWait2 _ hcase => simp [hcase] at hstate
    | timeWait _ hcase => rcases hcase with hcase | hcase <;> simp [hcase] at hstate
    | reset hwhy =>
        cases hwhy with
        | rst seg' hprocesses hverdict =>
            obtain rfl := TaskInput.segment.inj (hprocesses.2.symm.trans hacc.processes.2)
            exact absurd (hverdict.symm.trans hacc.verdict) (by simp)
        | lastAck _ _ hcase => simp [hcase] at hstate
        | timeWait hscan => exact absurd (hacc.processes.2.symm.trans hscan.2) (by simp)
    | close hcmd | listen hcmd | connect hcmd =>
        exact absurd (hacc.processes.2.symm.trans hcmd.2) (by simp)

/-- The peer's SYN is the first tile. -/
theorem Enters.reads (h : Enters s a s' i seg) (hstep : step s a = some s')
    (hseg : OfStream tiles seg) (hsyn : seg.syn = true)
    (hreceive : (s.g.ports i).onReceive.isSome = true) (running : Prop) :
    Reads tiles running (s'.g.ports i) [] seg.header.seqNum [seg.tile] := by
  have hc : bytesDelivered i s a = true := by
    obtain ⟨⟨⟨env, rfl⟩, hin⟩, hverdict⟩ := h.accepts
    have hlen : seg.dataLength = 0 := hseg.bare (by simp [hsyn])
    rcases h.state with ⟨hfrom, -⟩ | ⟨hfrom, -⟩ <;> simp [bytesDelivered, hin, hverdict, hfrom, hlen]
  obtain ⟨-, hr⟩ := h.receives hstep hc hreceive
  refine .start hseg hsyn ?_
  have hfin : (s'.g.ports i).state.finAccepted = 0 := by
    rcases h.state with ⟨-, hto⟩ | ⟨-, hto⟩ <;> rw [hto] <;> rfl
  rw [hr.ackNum, hfin]
  simp

theorem Segment.tile_bytes_of_empty (h : seg.dataLength = 0) : seg.tile.bytes = [] := by
  simp [Segment.tile, h, Memory.load]

/-- An established port answers whatever carries bytes of the stream. -/
theorem OfStream.acknowledges {p : TcpPort} (hseg : OfStream tiles seg)
    (hstate : p.state = .established) (hlen : seg.dataLength > 0) : acknowledges p seg = true := by
  have hinc : seg.sequenceIncrement > 0 := by
    unfold Segment.sequenceIncrement
    split
    case isTrue hflag =>
        rw [hseg.bare hflag] at hlen
        exact absurd hlen (by decide)
    case isFalse => simpa using hlen
  simpa [Tcp.acknowledges, hstate] using hinc

/-- An established port hands on the bytes of a segment of the stream, unless `tcp_task` gets stuck
    on it. -/
theorem Accepts.received_established (hacc : Accepts s a i seg) (hstep : step s a = some s')
    (hinc : (s.g.ports i).incarnation = some n) (hstate : (s.g.ports i).state = .established)
    (hreceive : (s.g.ports i).onReceive.isSome = true) (hseg : OfStream tiles seg) :
    s'.tcpTask ≠ .running ∧ received s'.g.log i n = received s.g.log i n ∨
      received s'.g.log i n = received s.g.log i n ++
        if acknowledges (s.g.ports i) seg then seg.tile.bytes else [] := by
  obtain ⟨k, hdeliveries, hreceived⟩ := hacc.received_deliveries hstep hinc
  rcases hacc.deliveries_established hstep hstate hreceive with ⟨hlog, hstuck⟩ | hlog
  · left
    have hk : k = 0 := by simpa using hdeliveries.symm.trans hlog
    exact ⟨hstuck, by simpa [hk] using hreceived⟩
  · right
    have hpayload := List.append_cancel_left (hdeliveries.symm.trans hlog)
    rw [hreceived]
    congr 1
    unfold Segment.payload at hpayload
    split at hpayload
    case isTrue hlen =>
        have hk : k = 1 := by simpa using congrArg List.length hpayload
        simp [hk, hseg.acknowledges hstate hlen]
    case isFalse hlen =>
        have hk : k = 0 := by simpa using congrArg List.length hpayload
        simp [hk, Segment.tile_bytes_of_empty (Segment.dataLength_of_not_pos hlen)]

/-- What a step hands on of a segment of the stream to a receiving port. -/
theorem Accepts.handsOn (hacc : Accepts s a i seg) (hstep : step s a = some s')
    (hc : bareHandshake i s a = true) (hinc : (s.g.ports i).incarnation = some n)
    (hstate : (s.g.ports i).state.receiving = true)
    (hreceive : (s.g.ports i).onReceive.isSome = true) (hseg : OfStream tiles seg) :
    s'.tcpTask ≠ .running ∧ received s'.g.log i n = received s.g.log i n ∨
      received s'.g.log i n = received s.g.log i n ++
        if acknowledges (s.g.ports i) seg then seg.tile.bytes else [] := by
  have hsame : (s.g.ports i).state ≠ .established →
      received s'.g.log i n = received s.g.log i n := fun hne =>
    step_received hstep fun _ _ hest => absurd hest hne
  cases hs : (s.g.ports i).state with
  | synReceived =>
      right
      rw [hsame (by simp [hs])]
      have hlen : seg.dataLength = 0 := by
        obtain ⟨⟨⟨env, rfl⟩, hin⟩, hverdict⟩ := hacc
        simpa [bareHandshake, hin, hverdict, hs] using hc
      simp [Segment.tile_bytes_of_empty hlen]
  | established => exact hacc.received_established hstep hinc hs hreceive hseg
  | lastAck =>
      right
      rw [hsame (by simp [hs])]
      simp [acknowledges, hs]
  | closed | listen | synSent | finWait1 | closeWait | finWait2 | timeWait =>
      simp [hs, TcpState.receiving] at hstate

end Accepted

/-! ### Runs -/

/-- Incarnation `n` of port `i` has read nothing before its peer's SYN and tiles from then on, if
    the sender of the tiles is its peer. -/
structure ReadsPort (tiles : List Tile) (key : Key) (s : System) (i : PortIdx) (n : Nat) : Prop where
  unheard : (s.g.ports i).state = .listen ∨ (s.g.ports i).state = .synSent →
    received s.g.log i n = []
  reads : (s.g.ports i).state ≠ .listen → (s.g.ports i).key = key → ∃ irs consumed,
    Reads tiles (s.tcpTask = .running) (s.g.ports i) (received s.g.log i n) irs consumed

section Port
variable {tiles : List Tile} {key : Key} {s s' : System} {a : Action} {i : PortIdx} {n : Nat}

/-- The port waits for its peer's SYN, receives, or has stopped receiving. -/
theorem TcpState.phase (state : TcpState) :
    (state = .listen ∨ state = .synSent) ∨ state.receiving = true ∨ state.finished = true := by
  cases state <;> simp [receiving, finished]

theorem TcpState.not_receiving_of_finished {state : TcpState} (h : state.finished = true) :
    state.receiving = false := by
  cases state <;> simp_all [receiving, finished]

/-- A step without a segment for the port. -/
theorem ReadsPort.idle (h : ReadsPort tiles key s i n) (hstep : step s a = some s')
    (hnone : ∀ seg, ¬ Accepts s a i seg) (hn : n < s.g.nextAddr)
    (hinc : (s'.g.ports i).incarnation = some n) (hcontinues : Continues s a i n (s'.g.ports i)) :
    ReadsPort tiles key s' i n := by
  have hreceived := step_received (n := n) hstep fun seg hacc => absurd hacc (hnone seg)
  rcases step_receiver hstep hnone hn hinc with hfinished | hsame
  · have hstopped := TcpState.not_receiving_of_finished hfinished
    constructor
    · rintro (hstate | hstate) <;> simp [hstate, TcpState.finished] at hfinished
    · intro _ hkey
      rw [hreceived]
      by_cases hlisten : (s.g.ports i).state = .listen
      · rw [h.unheard (.inl hlisten)]
        exact ⟨0, [], .nothing hstopped⟩
      · rcases hcontinues.key hn with ⟨hkeep, -⟩ | ⟨seg, hacc, -⟩
        · obtain ⟨irs, consumed, hreads⟩ := h.reads hlisten (hkeep ▸ hkey)
          exact ⟨irs, consumed, hreads.stop (by simp [hstopped])⟩
        · exact absurd hacc (hnone seg)
  · have hstate : (s'.g.ports i).state = (s.g.ports i).state := congrArg (·.1) hsame
    constructor
    · rw [hstate, hreceived]
      exact h.unheard
    · rw [hstate, hreceived]
      intro hlisten hkey
      rcases hcontinues.key hn with ⟨hkeep, -⟩ | ⟨seg, hacc, -⟩
      · obtain ⟨irs, consumed, hreads⟩ := h.reads hlisten (hkeep ▸ hkey)
        exact ⟨irs, consumed, hreads.congr (running_of_step hstep) hsame⟩
      · exact absurd hacc (hnone seg)

variable {seg : Segment}

/-- A segment does not make a port forget its peer. -/
theorem Accepts.heard (hacc : Accepts s a i seg) (hstep : step s a = some s')
    (h : (s'.g.ports i).state = .listen ∨ (s'.g.ports i).state = .synSent) :
    (s'.g.ports i).state = (s.g.ports i).state := by
  rcases step_state hstep i with hsame | htransition
  · exact hsame
  · generalize (s'.g.ports i).state = target at htransition h ⊢
    cases htransition with
    | listen hcmd | connect hcmd => exact absurd (hacc.processes.2.symm.trans hcmd.2) (by simp)
    | reset | takeOver | establish | finReply | finWait2 | timeWait | close => simp at h

/-- A segment for a port that waits for its peer's SYN. -/
theorem ReadsPort.first (h : ReadsPort tiles key s i n) (hacc : Accepts s a i seg)
    (hstep : step s a = some s') (hn : n < s.g.nextAddr)
    (hcontinues : Continues s a i n (s'.g.ports i))
    (hreceive : (s.g.ports i).onReceive.isSome = true) (hseg : seg.key = key → OfStream tiles seg)
    (hstate : (s.g.ports i).state = .listen ∨ (s.g.ports i).state = .synSent) :
    ReadsPort tiles key s' i n := by
  have hempty : received s'.g.log i n = [] := by
    rw [step_received hstep, h.unheard hstate]
    rintro _ _ hest
    simp [hest] at hstate
  refine ⟨fun _ => hempty, fun hlisten hkey => ?_⟩
  rw [hempty]
  rcases hacc.unheard hstep hstate with hsame | ⟨hsyn, henters⟩
  · refine ⟨0, [], .nothing ?_⟩
    rw [hsame] at hlisten ⊢
    rw [hstate.resolve_left hlisten]
    rfl
  · have hsegKey : seg.key = key := by
      rcases hcontinues.key hn with ⟨hkeep, hto⟩ | ⟨seg', hacc', hkeep⟩
      · rcases henters.state with ⟨hfrom, hreached⟩ | ⟨hfrom, -⟩
        · exact absurd hreached (hto hfrom)
        · exact ((hacc.key (by simp [hfrom])).symm.trans hkeep.symm).trans hkey
      · obtain rfl := hacc.unique hacc'
        exact hkeep.symm.trans hkey
    exact ⟨_, _, henters.reads hstep (hseg hsegKey) hsyn hreceive _⟩

/-- A segment for a port that has heard of its peer. -/
theorem ReadsPort.next (h : ReadsPort tiles key s i n) (hacc : Accepts s a i seg)
    (hstep : step s a = some s') (hc : bareHandshake i s a = true) (hn : n < s.g.nextAddr)
    (hinc : (s'.g.ports i).incarnation = some n)
    (hinc₀ : (s.g.ports i).incarnation = some n) (hcontinues : Continues s a i n (s'.g.ports i))
    (hreceive : (s.g.ports i).onReceive.isSome = true) (hseg : seg.key = key → OfStream tiles seg)
    (hheard : ¬ ((s.g.ports i).state = .listen ∨ (s.g.ports i).state = .synSent)) :
    ReadsPort tiles key s' i n := by
  have hlisten : (s.g.ports i).state ≠ .listen := fun hlisten => hheard (.inl hlisten)
  refine ⟨fun hstate => absurd (hacc.heard hstep hstate ▸ hstate) hheard, fun _ hkey => ?_⟩
  have hkey₀ : (s.g.ports i).key = key := by
    rcases hcontinues.key hn with ⟨hkeep, -⟩ | ⟨seg', hacc', hkeep⟩
    · exact hkeep.symm.trans hkey
    · obtain rfl := hacc.unique hacc'
      exact (hacc.key hlisten).trans (hkeep.symm.trans hkey)
  have hstream := hseg ((hacc.key hlisten).symm.trans hkey₀)
  obtain ⟨irs, consumed, hreads⟩ := h.reads hlisten hkey₀
  rcases (TcpState.phase (s.g.ports i).state).resolve_left hheard with hreceiving | hfinished
  · rcases hacc.handsOn hstep hc hinc₀ hreceiving hreceive hstream with ⟨hstuck, hsame⟩ | hmore
    · rw [hsame]
      exact ⟨irs, consumed, hreads.stop (by simp [hstuck])⟩
    · have hnum : s'.tcpTask = .running → (s'.g.ports i).state.receiving = true →
          (s'.g.ports i).ackNum = ((s.g.ports i).answered seg).ackNum := fun hrunning _ =>
        (hacc.ackNum_answered hstep hrunning hreceiving).resolve_left (by simp [hinc])
      obtain ⟨consumed', hreads'⟩ := hreads.take hreceiving (hacc.runs hstep)
        (hacc.seqNum hreceiving) hstream hnum hmore
      exact ⟨irs, consumed', hreads'⟩
  · rw [step_received hstep fun _ _ hest => by simp [hest, TcpState.finished] at hfinished]
    have hstopped := TcpState.not_receiving_of_finished (hacc.finished hstep hfinished)
    exact ⟨irs, consumed, hreads.stop (by simp [hstopped])⟩

end Port

/-- What every incarnation of port `i` has read. -/
structure Readings (tiles : List Tile) (key : Key) (i : PortIdx) (s : System) : Prop where
  fresh : ∀ n, (s.g.ports i).incarnation = some n → n < s.g.nextAddr
  unused : ∀ n, s.g.nextAddr ≤ n → received s.g.log i n = []
  port : ∀ n, (s.g.ports i).incarnation = some n → (s.g.ports i).onReceive.isSome = true →
    ReadsPort tiles key s i n

section Runs
variable {tiles : List Tile} {key : Key} {i : PortIdx}

theorem Readings.step {s s' : System} {a : Action} (hs : Readings tiles key i s)
    (hrun : ∃ net as, run step (boot net) as = some s) (hc : bareHandshake i s a = true)
    (hqueue : ∀ seg ∈ s.g.inputQueue, Segment.key seg = key → OfStream tiles seg)
    (hstep : step s a = some s') : Readings tiles key i s' := by
  obtain ⟨net, as, hrun⟩ := hrun
  have hnext : s.g.nextAddr ≤ s'.g.nextAddr :=
    step_preserves (P := fun g => s.g.nextAddr ≤ g.nextAddr)
      (fun _ _ he hle => hle.trans he.nextAddr) hstep le_rfl
  have hunused : ∀ n, s.g.nextAddr ≤ n → received s'.g.log i n = [] := by
    intro n hn
    rw [step_received hstep, hs.unused n hn]
    intro _ _ _ hinc
    exact absurd (hs.fresh n hinc) (by omega)
  refine ⟨fun n => ?_, fun n hn => hunused n (hnext.trans hn), fun n hinc hreceive => ?_⟩
  · have hrun' : run Tcp.step (boot net) (as ++ [a]) = some s' := by
      simp [run_append, hrun, run_cons, hstep]
    exact fresh_of_run hrun' i n
  have hcontinues := step_continues hstep hs.fresh hinc
  by_cases hn : n < s.g.nextAddr
  · have hinc₀ := step_incarnation hstep hn hinc
    have hreceive₀ : (s.g.ports i).onReceive.isSome = true := hcontinues.onReceive hn ▸ hreceive
    have hport := hs.port n hinc₀ hreceive₀
    by_cases hacc : ∃ seg, Accepts s a i seg
    · obtain ⟨seg, hacc⟩ := hacc
      have hseg := hqueue seg (mem_inputQueue_of_selectInput hacc.processes.2)
      by_cases hstate : (s.g.ports i).state = .listen ∨ (s.g.ports i).state = .synSent
      · exact hport.first hacc hstep hn hcontinues hreceive₀ hseg hstate
      · exact hport.next hacc hstep hc hn hinc hinc₀ hcontinues hreceive₀ hseg hstate
    · exact hport.idle hstep (fun seg h => hacc ⟨seg, h⟩) hn hinc hcontinues
  · have hn : s.g.nextAddr ≤ n := Nat.le_of_not_lt hn
    refine ⟨fun _ => hunused n hn, fun _ _ => ?_⟩
    rw [hunused n hn]
    exact ⟨0, [], .nothing (hcontinues.created hn)⟩

/-- What arrives for the connection belongs to the stream. -/
def InStream (tiles : List Tile) (key : Key) : Action → Prop
  | .inputTcp buffer length src (some heap) =>
      (copied buffer length src heap).key = key → OfStream tiles (copied buffer length src heap)
  | _ => True

/-- In every run in which what arrives for the connection belongs to the stream and no bytes come
    before the handshake is over, what the port has read are tiles of the stream. -/
theorem readings_of_run {net : NetContext} {as : List Action} {s : System}
    (hrun : run step (boot net) as = some s)
    (hg : Guarded step (fun s a => InStream tiles key a ∧ bareHandshake i s a = true) (boot net) as) :
    Readings tiles key i s := by
  refine run_invariant_of_run (P := Readings tiles key i) ?_ ?_ hg hrun
  · intro as s a s' hrun hg hs hc hstep
    refine hs.step ⟨net, as, hrun⟩ hc.2 ?_ hstep
    exact (inputQueue_of_run (P := fun seg => Segment.key seg = key → OfStream tiles seg)
      (fun _ _ _ _ _ h => h.1) hg hrun).2
  · exact ⟨by simp [boot, TcpPort.incarnation], by simp [boot, received],
      by simp [boot, TcpPort.incarnation]⟩

end Runs

/-! ### Two hosts -/

/-- What has been read is the stream from a SYN on, as far as it has come. -/
theorem Reads.stretch {tiles consumed : List Tile} {running : Prop} {p : TcpPort}
    {bytes : List (BitVec 8)} {irs : BitVec 32}
    (hcontiguous : Contiguous 0 (tiles.map (·.space)))
    (hpos : ∀ tile ∈ tiles, tile.space.length ≠ 0)
    (hfits : totalLength (tiles.map (·.space.toNat)) < 2 ^ 32)
    (h : Reads tiles running p bytes irs consumed) :
    bytes = [] ∨ ∃ before syn after, tiles = before ++ syn :: after ∧
      flagSyn syn.control = true ∧ bytes <+: streamBytes (syn :: after) := by
  cases consumed with
  | nil => exact .inl h.bytes
  | cons syn rest =>
      obtain ⟨before, after, rfl, hprefix⟩ := exists_prefix_of_contiguous_words hcontiguous
        (by simpa using hfits) hpos h.inOrder h.mem
      obtain ⟨after, rfl⟩ := hprefix
      refine .inr ⟨before, syn, rest ++ after, by simp, h.syn syn rfl, ?_⟩
      rw [h.bytes]
      exact ⟨streamBytes after, by simp [streamBytes]⟩

/-- Every transmission for the connection that takes up sequence numbers is one of the incarnation
    `n` of port `i`. -/
def ServedBy (log : List Event) (key : Key) (i : PortIdx) (n : Nat) : Prop :=
  ∀ t ∈ transmissions log, t.params.key = key → t.range.length ≠ 0 →
    t.slot = i ∧ t.incarnation = some n

instance (log : List Event) (key : Key) (i : PortIdx) (n : Nat) :
    Decidable (ServedBy log key i n) :=
  inferInstanceAs (Decidable (∀ t ∈ transmissions log, _ = _ → _ ≠ _ → _ ∧ _))

/-- What arrives from `src` is what the network delivers of one of the transmissions for `dst`. -/
def ComesFrom (sent : List Transmission) (src dst : Ipv4Addr) : Action → Prop
  | .inputTcp buffer length addr (some _) =>
      addr = src → ∃ t ∈ sent, t.params.dstIpv4Addr = dst ∧ Delivers t ⟨buffer, length, addr⟩
  | _ => True

/-- The copy of a delivered segment is delivered as well. -/
theorem Delivers.copied {t : Transmission} {buffer : Memory} {length : BitVec 16} {src : Ipv4Addr}
    (h : Delivers t ⟨buffer, length, src⟩) (heap : Memory) :
    Delivers t (copied buffer length src heap) := by
  refine ⟨h.length, fun block hblock k hk => ?_, h.source⟩
  rw [← h.bytes block hblock k hk]
  have hlen : k < (buffer.load 0 length.toNat).length := by simpa [Tcp.copied] using hk
  have hstored := heap.store_inside 0 (buffer.load 0 length.toNat) hlen
  rwa [Nat.zero_add, Memory.load_getElem, Nat.zero_add] at hstored

section Hosts
variable {netA netB : NetContext} {as bs : List Action} {a b : System} {i j : PortIdx} {m n : Nat}

/-- What comes from the sender belongs to the stream of the incarnation that serves the
    connection. -/
theorem inStream_of_comesFrom (ha : run step (boot netA) as = some a)
    (hg : Guarded step (sendsWhole · ·) (boot netA) as) {self other : BitVec 16}
    (hserved : ServedBy a.g.log (other, self, netB.ip) j m) {x : Action}
    (hx : ComesFrom (transmissions a.g.log) netA.ip netB.ip x) :
    InStream (sentTiles a.g.log j m) (self, other, netA.ip) x := by
  cases x with
  | inputTcp buffer length src malloc =>
      cases malloc with
      | none => trivial
      | some heap =>
          intro hkey
          have hself := congrArg Prod.fst hkey
          have hother := congrArg (·.2.1) hkey
          have hsrc : src = netA.ip := congrArg (·.2.2) hkey
          obtain ⟨t, ht, hdst, hdelivers⟩ := hx hsrc
          have hwell := (bounded_of_run ha hg).transmits t (mem_transmissions.mp ht)
          have hcopied := hdelivers.copied heap
          obtain ⟨hsrcPort, hdstPort, -⟩ := hcopied.header hwell (fits_of_bounded hwell.bounded)
          refine hcopied.ofStream hwell fun hlen => ?_
          have hparams : t.params.key = (other, self, netB.ip) := by
            rw [TcpTransmitParams.key, ← hsrcPort, ← hdstPort, hdst]
            exact Prod.ext hother (Prod.ext hself rfl)
          obtain ⟨rfl, hinc⟩ := hserved t ht hparams hlen
          exact tilesSent_of_run ha hg t ht m hinc hlen
  | _ => trivial

/-- What a port has read of a sender whose connection one incarnation serves. -/
theorem received_of_runs (ha : run step (boot netA) as = some a)
    (hga : Guarded step (sendsWhole · ·) (boot netA) as) (hb : run step (boot netB) bs = some b)
    (hgb : Guarded step (fun s x => ComesFrom (transmissions a.g.log) netA.ip netB.ip x ∧
      bareHandshake i s x = true) (boot netB) bs)
    {self other : BitVec 16} (hserved : ServedBy a.g.log (other, self, netB.ip) j m)
    (hspace : totalLength ((sentTiles a.g.log j m).map (·.space.toNat)) < 2 ^ 32)
    (hinc : (b.g.ports i).incarnation = some n)
    (hreceive : (b.g.ports i).onReceive.isSome = true) (hopen : (b.g.ports i).state ≠ .listen)
    (hkey : (b.g.ports i).key = (self, other, netA.ip)) :
    received b.g.log i n = [] ∨ ∃ before syn after,
      sentTiles a.g.log j m = before ++ syn :: after ∧ flagSyn syn.control = true ∧
        received b.g.log i n <+: streamBytes (syn :: after) := by
  have hreadings : Readings (sentTiles a.g.log j m) (self, other, netA.ip) i b :=
    readings_of_run hb (hgb.mono fun _ _ h => ⟨inStream_of_comesFrom ha hga hserved h.1, h.2⟩)
  obtain ⟨irs, consumed, hreads⟩ := (hreadings.port n hinc hreceive).reads hopen hkey
  exact hreads.stretch (sentTiles_contiguous ha hga j m) (fun _ h => length_ne_zero_of_sent h) hspace

end Hosts

end NetStack.Tcp
