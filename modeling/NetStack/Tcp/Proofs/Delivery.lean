import NetStack.Lib.Chunks
import NetStack.Tcp.Proofs.Lifetimes
import NetStack.Tcp.Proofs.Waiting
import Mathlib.Data.BitVec
import Mathlib.Tactic.Ring

/-!
# Acknowledged bytes and delivered bytes

`ack_num` advances in one place and payloads are delivered in another, in one state only. From
the moment a port knows its peer's sequence number the two stay in step as long as no bytes
arrive in a state that does not deliver them, no stray SYN is counted, and `tcp_task` does not
get stuck between the two places.
-/

namespace NetStack.Tcp
open NetStack.Lib

/-- The payload that an event hands to `on_receive` of port `i`: the sequence number in the
    segment's header and the number of bytes. -/
def Event.delivery? (i : PortIdx) : Event → Option (Chunk (BitVec 32))
  | .onReceive j _ buffer _ dataLen =>
      if j = i then some ⟨(TcpHeader.read buffer).seqNum, dataLen.setWidth 32⟩ else none
  | _ => none

/-- What a history has delivered through port `i`, in its order. -/
def deliveries (log : List Event) (i : PortIdx) : List (Chunk (BitVec 32)) :=
  log.filterMap (Event.delivery? i)

/-- The states from the end of the handshake's first half until the application closes. -/
def TcpState.receiving : TcpState → Bool
  | .synReceived | .established | .lastAck => true
  | .closed | .listen | .synSent | .finWait1 | .closeWait | .finWait2 | .timeWait => false

/-- The states after the application has closed, which lead to no other ones. -/
def TcpState.finished : TcpState → Bool
  | .closed | .finWait1 | .closeWait | .finWait2 | .timeWait => true
  | .listen | .synSent | .synReceived | .established | .lastAck => false

/-- The sequence number that an accepted FIN takes. -/
def TcpState.finAccepted : TcpState → BitVec 32
  | .lastAck => 1
  | _ => 0

/-- The fields of a port that the receive path works with. -/
def TcpPort.receiver (p : TcpPort) : TcpState × Option FnPtr × BitVec 32 × Option Nat :=
  (p.state, p.onReceive, p.ackNum, p.incarnation)

/-- After the peer's sequence number `irs` port `i` has acknowledged exactly the payloads
    `chunks`, which follow one another, and a FIN if it has accepted one. -/
structure AcksDelivered (p : TcpPort) (irs : BitVec 32) (chunks : List (Chunk (BitVec 32))) :
    Prop where
  ackNum : p.ackNum - (irs + 1) = totalLength chunks + p.state.finAccepted
  inOrder : Contiguous (irs + 1) chunks

/-- Port `i` accepts no bytes that it does not deliver: none with the handshake, no SYN after
    it, and none that `tcp_task` gets stuck on. -/
def bytesDelivered (i : PortIdx) (s : System) : Action → Bool
  | .tcpTask _ =>
      match (selectInput s.g).2 with
      | .segment seg =>
          match checkSegment s.g seg with
          | .accept k =>
              k != i ||
                match (s.g.ports i).state with
                | .synSent => !(seg.syn && seg.ack) || seg.dataLength == 0
                | .synReceived => seg.sequenceIncrement == 0
                | .established =>
                    (seg.fin || !seg.syn) && !(seg.fin && seg.dataLength == 0xFFFF) &&
                      !segmentWaits s.g i seg
                | _ => true
          | _ => true
      | _ => true
  | _ => true

/-! ### What a step does to the receiver of a port -/

/-- How an effect can change the receiver of port `k`. -/
inductive ReceiverChange (s : System) (a : Action) (k : PortIdx) (g : Globals) (p : TcpPort) :
    Prop
  | same (h : p.receiver = (g.ports k).receiver)
  | accepted {seg : Segment} (hacc : Accepts s a k seg)
      (hinc : p.incarnation = (g.ports k).incarnation)
  | closing (hinc : p.incarnation = (g.ports k).incarnation) (hstate : p.state = .finWait1)
  /-- The port is gone, or a new one takes its slot. -/
  | renewed (h : ∀ n, p.incarnation = some n → g.nextAddr ≤ n)

theorem Quiet.receiver {g g' : Globals} (h : Quiet g g') (k : PortIdx) :
    (g'.ports k).receiver = (g.ports k).receiver := h.field k _ fun _ _ => rfl

theorem receiver_setPort {g : Globals} {i : PortIdx} {p : TcpPort}
    (h : p.receiver = (g.ports i).receiver) (k : PortIdx) :
    ((g.setPort i p).ports k).receiver = (g.ports k).receiver := by
  by_cases hk : k = i
  · subst hk
    simpa using h
  · simp [hk]

theorem receiver_take {g : Globals} {i : PortIdx} {sem sem' : CountingSemaphore maxUnacked}
    (hsem : (g.ports i).unackedSlots = some sem) (htake : sem.take = some sem') :
    TcpPort.receiver { g.ports i with unackedSlots := some sem' } = (g.ports i).receiver := by
  simp [TcpPort.receiver, TcpPort.incarnation, hsem, (CountingSemaphore.take_some htake).1]

theorem Taken.receiver {g g' : Globals} {i : PortIdx} {params : TcpTransmitParams}
    (h : Taken g i params g') (k : PortIdx) :
    (g'.ports k).receiver = (g.ports k).receiver := by
  cases h with
  | queued hsem htake => exact receiver_setPort (receiver_take hsem htake) k
  | full _ _ _ hquiet => exact hquiet.receiver k
  | lost hsem htake _ hquiet =>
      exact (hquiet.receiver k).trans (receiver_setPort (receiver_take hsem htake) k)

theorem Enqueue.receiver {B : Prop} {g g' : Globals} {params : TcpTransmitParams}
    (h : Enqueue B g params g') (k : PortIdx) :
    (g'.ports k).receiver = (g.ports k).receiver := by
  cases h with
  | unfound _ hquiet => exact hquiet.receiver k
  | noSlot _ _ _ _ hquiet => exact hquiet.receiver k
  | taken _ h => exact h.receiver k

/-- Port `i` is replaced by `p`. -/
theorem ReceiverChange.setPort {s : System} {a : Action} {k i : PortIdx} {g : Globals}
    {p : TcpPort} (h : k = i → ReceiverChange s a k g p) :
    ReceiverChange s a k g ((g.setPort i p).ports k) := by
  by_cases hk : k = i
  · rw [hk]
    simpa [hk] using h hk
  · exact .same (by simp [hk])

theorem ReceiverChange.congr {s : System} {a : Action} {k : PortIdx} {g : Globals}
    {p p' : TcpPort} (hp : p'.receiver = p.receiver) (h : ReceiverChange s a k g p) :
    ReceiverChange s a k g p' := by
  obtain ⟨hstate, -, -, hinc⟩ : p'.state = p.state ∧ p'.onReceive = p.onReceive ∧
      p'.ackNum = p.ackNum ∧ p'.incarnation = p.incarnation := by
    simpa [TcpPort.receiver] using hp
  cases h with
  | same h => exact .same (hp.trans h)
  | accepted hacc h => exact .accepted hacc (hinc.trans h)
  | closing h h' => exact .closing (hinc.trans h) (hstate.trans h')
  | renewed h => exact .renewed (hinc ▸ h)

@[simp] theorem TcpPort.given_receiver (p : TcpPort) : p.given.receiver = p.receiver :=
  congrArg (p.state, p.onReceive, p.ackNum, ·) p.given_incarnation

@[simp] theorem TcpPort.released_receiver (p : TcpPort) (j : UnackedIdx) :
    (p.released j).receiver = p.receiver :=
  congrArg (p.state, p.onReceive, p.ackNum, ·) (p.released_incarnation j)

/-- What an effect does to the receiver of a port. -/
theorem Effect.receiverChange {s s' : System} {a : Action} {g g' : Globals}
    (he : Effect s a s' g g') (k : PortIdx) : ReceiverChange s a k g (g'.ports k) := by
  cases he with
  | quiet hquiet => exact .same (hquiet.receiver k)
  | appSend _ _ _ _ h => exact .same (h.receiver k)
  | resumed _ _ _ _ h => exact .same (h.receiver k)
  | appWait | resumedStale | dropped | passed | retransmitted | delivered | disconnected =>
      exact .same rfl
  | strayGive => exact .same (receiver_setPort (TcpPort.given_receiver _) k)
  | touched | recorded => exact .same (receiver_setPort (by rfl) k)
  | gaveUp | released => exact .same (receiver_setPort (TcpPort.released_receiver _ _) k)
  | reset _ _ _ _ h =>
      obtain ⟨unacked, -, hports⟩ := h.ports
      rw [hports]
      exact ReceiverChange.setPort fun _ => .renewed (by simp [TcpPort.incarnation])
  | acknowledged hacc | ackStuck hacc | finWait2 hacc | timeWait hacc =>
      exact ReceiverChange.setPort fun hk => .accepted (hk ▸ hacc) (hk ▸ rfl)
  | @tookOver _ i seg hacc _ _ _ _ h =>
      refine .congr (h.receiver k) (ReceiverChange.setPort fun hk => ?_)
      exact .accepted (hk ▸ hacc) (hk ▸ rfl)
  | @established i seg hacc =>
      have hset : ReceiverChange s a k g ((g.setState i .established).ports k) :=
        ReceiverChange.setPort fun hk => .accepted (hk ▸ hacc) (hk ▸ rfl)
      rwa [ports_callOnConnect]
  | @finReplied g₁ i seg hacc _ _ _ h =>
      by_cases hk : k = i
      · subst hk
        refine .accepted hacc ?_
        simpa [Globals.setState, TcpPort.incarnation] using h.incarnation k
      · refine .same ?_
        simpa [Globals.setState, hk] using h.receiver k
  | closing _ _ _ h =>
      refine .congr (h.receiver k) (ReceiverChange.setPort fun hk => ?_)
      exact .closing (hk ▸ rfl) rfl
  | @listening self onReceive onConnect onDisconnect i =>
      exact ReceiverChange.setPort (i := i) fun _ => .renewed (by
        simp [newPort, TcpPort.incarnation, CountingSemaphore.create])
  | @connecting _ self other addr onReceive onConnect onDisconnect i _ _ _ h =>
      refine .congr (h.receiver k) (ReceiverChange.setPort (i := i) fun _ => .renewed ?_)
      simp [connectingPort, newPort, TcpPort.incarnation, CountingSemaphore.create]

/-! ### Deliveries -/

theorem deliveries_append (log l : List Event) (i : PortIdx) :
    deliveries (log ++ l) i = deliveries log i ++ deliveries l i := List.filterMap_append

theorem deliveries_callOnConnect (g : Globals) (k i : PortIdx) :
    deliveries (callOnConnect g k).log i = deliveries g.log i := by
  unfold callOnConnect
  split
  · rw [Globals.log_emit, deliveries_append]
    exact List.append_nil _
  · rfl

theorem LogQuiet.deliveries_eq {g g' : Globals} (h : LogQuiet g g') (i : PortIdx) :
    deliveries g'.log i = deliveries g.log i :=
  h.filterMap_eq fun e he => by cases e <;> simp_all [Event.quiet, Event.delivery?]

theorem Taken.deliveries {g g' : Globals} {k : PortIdx} {params : TcpTransmitParams}
    (h : Taken g k params g') (i : PortIdx) : deliveries g'.log i = deliveries g.log i := by
  cases h with
  | queued _ _ _ _ =>
      rw [Globals.log_emit, deliveries_append]
      exact List.append_nil _
  | full _ _ _ hquiet => exact hquiet.log.deliveries_eq i
  | lost _ _ _ hquiet => exact hquiet.log.deliveries_eq i

theorem Enqueue.deliveries {B : Prop} {g g' : Globals} {params : TcpTransmitParams}
    (h : Enqueue B g params g') (i : PortIdx) : deliveries g'.log i = deliveries g.log i := by
  cases h with
  | unfound _ hquiet => exact hquiet.log.deliveries_eq i
  | noSlot _ _ _ _ hquiet => exact hquiet.log.deliveries_eq i
  | taken _ h => exact h.deliveries i

/-- Without a segment for port `i` nothing is delivered through it. -/
theorem step_deliveries {s s' : System} {a : Action} (h : step s a = some s') {i : PortIdx}
    (hnone : ∀ seg, ¬ Accepts s a i seg) : deliveries s'.g.log i = deliveries s.g.log i := by
  obtain ⟨l, hlog, hlogs⟩ := step_logGrows h
  have hnil : deliveries l i = [] := by
    apply List.filterMap_eq_nil_iff.mpr
    intro e he
    cases hlogs e he with
    | quiet hquiet => cases e <;> simp_all [Event.quiet, Event.delivery?]
    | @onReceive j seg hacc _ =>
        have hj : j ≠ i := by
          rintro rfl
          exact hnone seg hacc
        simp [Event.delivery?, hj]
    | queued | transmit | acked | reset | onConnect | onDisconnect => rfl
  rw [hlog, deliveries_append, hnil, List.append_nil]

/-- The receiver of a port after its segment has been acknowledged. -/
def TcpPort.answered (p : TcpPort) (seg : Segment) : TcpPort :=
  if acknowledges p seg then p.advanced seg else p

private theorem processAck_receiver (g : Globals) (i : PortIdx) (n : BitVec 32) (k : PortIdx) :
    ((processAck g i n).ports k).receiver = (g.ports k).receiver ∧
      deliveries (processAck g i n).log k = deliveries g.log k := by
  unfold processAck
  split
  case isTrue =>
      refine forIdx_invariant (P := fun g' : Globals =>
        (g'.ports k).receiver = (g.ports k).receiver ∧
          deliveries g'.log k = deliveries g.log k) ?_ ⟨rfl, rfl⟩
      rintro j g' ⟨hreceiver, hlog⟩
      rw [ackUnacked_eq]
      split
      case isTrue =>
          have hspec := releaseUnacked_spec g' i j
          refine ⟨(hspec.receiver k).trans ?_, (hspec.log.deliveries_eq k).trans ?_⟩
          · exact (receiver_setPort (TcpPort.released_receiver _ _) k).trans hreceiver
          · rw [Globals.log_emit, deliveries_append, Globals.log_setPort, hlog]
            exact List.append_nil _
      case isFalse => exact ⟨hreceiver, hlog⟩
  case isFalse => exact ⟨rfl, rfl⟩

/-- A segment that a port accepts reaches the switch on its state, where the port has been
    answered, or `tcp_task` waits with it before. -/
theorem Accepts.answered {s s' : System} {a : Action} {i : PortIdx} {seg : Segment}
    (hacc : Accepts s a i seg) (hstep : step s a = some s') :
    (acknowledges (s.g.ports i) seg = true ∧ s'.tcpTask ≠ .running ∧
      (s'.g.ports i).state = (s.g.ports i).state ∧
        deliveries s'.g.log i = deliveries s.g.log i) ∨
    ∃ g, (g.ports i).receiver = ((s.g.ports i).answered seg).receiver ∧
      deliveries g.log i = deliveries s.g.log i ∧ afterTask (inputState g i seg) = some s' := by
  obtain ⟨⟨⟨env, rfl⟩, hin⟩, hverdict⟩ := hacc
  obtain ⟨hquiet, hports, -⟩ := selectInput_quiet (g := s.g) (by simp [hin])
  have h : afterTask (acceptSegment (selectInput s.g).1 i seg) = some s' := by
    cases hs : s.tcpTask with
    | running =>
        simpa [step, hs, tcpTaskIteration, hin, executeInput, inputTcpInternal,
          checkSegment_congr hports, hverdict] using hstep
    | blocked r => simp [step, hs] at hstep
  generalize (selectInput s.g).1 = g at h hquiet
  have hreleased : ∀ released, (if seg.ack then processAck g i seg.header.ackNum else g) =
      released → (released.ports i).receiver = (s.g.ports i).receiver ∧
        deliveries released.log i = deliveries s.g.log i := by
    rintro released rfl
    rw [← hquiet.receiver i, ← hquiet.log.deliveries_eq i]
    split
    · exact processAck_receiver g i _ i
    · exact ⟨rfl, rfl⟩
  unfold acceptSegment at h
  simp only at h
  generalize (if seg.ack then processAck g i seg.header.ackNum else g) = released at h hreleased
  obtain ⟨hreceiver, hlog⟩ := hreleased released rfl
  have hstate : (released.ports i).state = (s.g.ports i).state := congrArg (·.1) hreceiver
  cases hr : acknowledgeData released i seg with
  | undefined => exact absurd hr acknowledgeData_defined
  | blocked g' on =>
      rw [hr] at h
      obtain rfl := Option.some.inj h
      obtain ⟨hacks, -, rfl⟩ := acknowledgeData_blocked hr
      rw [acknowledges_congr hstate] at hacks
      exact .inl ⟨hacks, by simp, by simpa [TcpPort.advanced] using hstate, hlog⟩
  | done g' u =>
      rw [hr] at h
      refine .inr ⟨_, ?_, ?_, h⟩
      · rw [(quiet_setWindow g' i _).receiver i]
        unfold TcpPort.answered
        rw [← acknowledges_congr hstate]
        rcases acknowledgeData_done hr with ⟨hacks, -, rfl⟩ | ⟨hacks, rfl⟩
        · rw [if_pos hacks]
          simp only [TcpPort.receiver, Prod.mk.injEq] at hreceiver
          simpa [TcpPort.receiver, TcpPort.advanced, TcpPort.incarnation] using
            ⟨hreceiver.1, hreceiver.2.1, hreceiver.2.2.2⟩
        · rw [if_neg (by simp [hacks]), hreceiver]
      · rcases acknowledgeData_done hr with ⟨-, -, rfl⟩ | ⟨-, rfl⟩ <;> simpa using hlog

/-- Without anything to acknowledge the switch sees the port as it is. -/
theorem Accepts.unanswered {s s' : System} {a : Action} {i : PortIdx} {seg : Segment}
    (hacc : Accepts s a i seg) (hstep : step s a = some s')
    (hacks : acknowledges (s.g.ports i) seg = false) :
    ∃ g, (g.ports i).receiver = (s.g.ports i).receiver ∧
      deliveries g.log i = deliveries s.g.log i ∧ afterTask (inputState g i seg) = some s' := by
  rcases hacc.answered hstep with ⟨hno, -⟩ | ⟨g, hg, hrest⟩
  · simp [hacks] at hno
  · rw [TcpPort.answered, if_neg (by simp [hacks])] at hg
    exact ⟨g, hg, hrest⟩

/-- The payload of a segment as a chunk of the stream, if it has one. -/
def Segment.payload (seg : Segment) : List (Chunk (BitVec 32)) :=
  if seg.dataLength > 0 then [⟨seg.header.seqNum, seg.dataLength.setWidth 32⟩] else []

theorem Segment.dataLength_of_not_pos {seg : Segment} (h : ¬ seg.dataLength > 0) :
    seg.dataLength = 0 := by
  bv_omega

theorem totalLength_payload (chunks : List (Chunk (BitVec 32))) (seg : Segment) :
    totalLength (chunks ++ seg.payload) = totalLength chunks + seg.dataLength.setWidth 32 := by
  unfold Segment.payload
  split
  case isTrue => exact totalLength_concat _ _
  case isFalse hlen => simp [Segment.dataLength_of_not_pos hlen]

theorem contiguous_payload {start : BitVec 32} {chunks : List (Chunk (BitVec 32))} {seg : Segment}
    (h : Contiguous start chunks) (hseq : seg.header.seqNum = start + totalLength chunks) :
    Contiguous start (chunks ++ seg.payload) := by
  unfold Segment.payload
  split
  · exact contiguous_concat.mpr ⟨h, hseq⟩
  · rwa [List.append_nil]

theorem deliverData_spec {g : Globals} {i : PortIdx} (seg : Segment)
    (hreceive : (g.ports i).onReceive.isSome = true) :
    (deliverData g i seg).ports = g.ports ∧
      deliveries (deliverData g i seg).log i = deliveries g.log i ++ seg.payload := by
  obtain ⟨callback, hcallback⟩ := Option.isSome_iff_exists.mp hreceive
  unfold deliverData Segment.payload
  split
  case isTrue =>
      rw [hcallback, Globals.log_emit, deliveries_append]
      simp [deliveries, Event.delivery?, Segment.header]
  case isFalse => simp

/-- Port `p` receives: it has delivered `chunks` since the peer's sequence number `irs`, and
    acknowledged just that. -/
structure Receives (p : TcpPort) (irs : BitVec 32) (chunks : List (Chunk (BitVec 32))) : Prop where
  state : p.state.receiving = true
  onReceive : p.onReceive.isSome = true
  ackNum : p.ackNum = irs + 1 + totalLength chunks + p.state.finAccepted
  inOrder : Contiguous (irs + 1) chunks

theorem Receives.congr {p p' : TcpPort} {irs : BitVec 32} {chunks : List (Chunk (BitVec 32))}
    (hp : p'.receiver = p.receiver) (h : Receives p irs chunks) : Receives p' irs chunks := by
  obtain ⟨hstate, hreceive, hack, -⟩ : p'.state = p.state ∧ p'.onReceive = p.onReceive ∧
      p'.ackNum = p.ackNum ∧ p'.incarnation = p.incarnation := by
    simpa [TcpPort.receiver] using hp
  exact ⟨hstate ▸ h.state, hreceive ▸ h.onReceive, by rw [hack, hstate]; exact h.ackNum, h.inOrder⟩

section Accepted
variable {s s' : System} {a : Action} {i : PortIdx} {seg : Segment} {irs : BitVec 32}
  {chunks : List (Chunk (BitVec 32))}

/-- A synchronized port accepts only what starts at its `ack_num`. -/
theorem Accepts.seqNum (hacc : Accepts s a i seg)
    (hstate : (s.g.ports i).state.receiving = true) :
    seg.header.seqNum = (s.g.ports i).ackNum := by
  obtain ⟨-, -, -, hsequence, -⟩ := checkSegment_accept hacc.verdict
  cases hcase : (s.g.ports i).state <;> simp_all [TcpState.receiving, outOfSequence]

/-- A segment that does not wait leaves `tcp_task` running. -/
theorem Accepts.running (hacc : Accepts s a i seg) (hstep : step s a = some s')
    (hwaits : segmentWaits s.g i seg = false) : s'.tcpTask = .running := by
  obtain ⟨⟨⟨env, rfl⟩, hin⟩, hverdict⟩ := hacc
  exact (step_running_iff hstep).mpr
    ⟨running_of_task hstep, by simpa [waits, hin, hverdict] using hwaits⟩

/-- A segment of no length in `SYN_RECEIVED` delivers nothing. -/
theorem Receives.synReceived (hacc : Accepts s a i seg) (hstep : step s a = some s')
    (hstate : (s.g.ports i).state = .synReceived) (hinc : seg.sequenceIncrement = 0)
    (h : Receives (s.g.ports i) irs chunks) :
    deliveries s'.g.log i = deliveries s.g.log i ∧ Receives (s'.g.ports i) irs chunks := by
  have hacks : acknowledges (s.g.ports i) seg = false := by simp [acknowledges, hinc]
  obtain ⟨g, hg, hlog, h'⟩ := hacc.unanswered hstep hacks
  have hstate' : (g.ports i).state = .synReceived := (congrArg (·.1) hg).trans hstate
  rw [← hlog]
  have hreceives := h.congr hg
  simp only [inputState, hstate'] at h'
  rw [afterTask_done h']
  unfold inputSynReceived
  split_ifs
  · exact ⟨(quiet_warn g _).log.deliveries_eq i, hreceives⟩
  · exact ⟨(quiet_warn g _).log.deliveries_eq i, hreceives⟩
  · rw [deliveries_callOnConnect, ports_callOnConnect]
    refine ⟨rfl, by simp [Globals.setState, TcpState.receiving], ?_, ?_, hreceives.inOrder⟩
    · simpa [Globals.setState] using hreceives.onReceive
    · simpa [Globals.setState, hstate', TcpState.finAccepted] using hreceives.ackNum

/-- In `LAST_ACK` nothing is delivered; the port waits on, or is reset. -/
theorem Receives.lastAck (hacc : Accepts s a i seg) (hstep : step s a = some s')
    (hstate : (s.g.ports i).state = .lastAck) (h : Receives (s.g.ports i) irs chunks) :
    (s'.g.ports i).incarnation = none ∨
      deliveries s'.g.log i = deliveries s.g.log i ∧ Receives (s'.g.ports i) irs chunks := by
  have hacks : acknowledges (s.g.ports i) seg = false := by simp [acknowledges, hstate]
  obtain ⟨g, hg, hlog, h'⟩ := hacc.unanswered hstep hacks
  have hstate' : (g.ports i).state = .lastAck := (congrArg (·.1) hg).trans hstate
  rw [← hlog]
  have hreceives := h.congr hg
  simp only [inputState, hstate'] at h'
  unfold inputLastAck at h'
  split_ifs at h'
  · rw [afterTask_done h']
    exact .inr ⟨(quiet_warn g _).log.deliveries_eq i, hreceives⟩
  · rw [afterTask_done h']
    exact .inr ⟨(quiet_warn g _).log.deliveries_eq i, hreceives⟩
  · left
    unfold callOnDisconnect at h'
    split at h'
    · obtain ⟨unacked, -, hports⟩ := (tcpResetPort_spec g i).ports
      rw [afterTask_done h', Globals.ports_emit, hports]
      simp [TcpPort.incarnation]
    · simp [afterTask] at h'

/-- What an established port acknowledges of the next segment in sequence: its payload and its
    FIN. -/
theorem TcpPort.ackNum_answered {p : TcpPort} (hstate : p.state = .established)
    (hseq : seg.header.seqNum = p.ackNum) (hsyn : seg.fin = true ∨ seg.syn = false)
    (hlong : seg.fin = true → seg.dataLength ≠ 0xFFFF) :
    (p.answered seg).ackNum =
      p.ackNum + seg.dataLength.setWidth 32 + if seg.fin then 1 else 0 := by
  have hacks : acknowledges p seg = decide (seg.sequenceIncrement > 0) :=
    Bool.eq_iff_iff.mpr (by simp [acknowledges, hstate])
  have hinc : seg.sequenceIncrement = seg.dataLength + if seg.fin then 1 else 0 := by
    unfold Segment.sequenceIncrement
    rcases hsyn with hfin | hsyn
    · simp [hfin]
    · simp [hsyn]
  unfold TcpPort.answered
  rw [hacks, hinc]
  cases hfin : seg.fin with
  | true =>
      have hne := hlong hfin
      simp only [if_true]
      rw [if_pos (by simp only [decide_eq_true_eq]; bv_omega)]
      simp only [TcpPort.advanced, hinc, hfin, if_true, hseq]
      bv_omega
  | false =>
      simp only [Bool.false_eq_true, if_false, add_zero, decide_eq_true_eq]
      by_cases hlen : seg.dataLength > 0
      · rw [if_pos hlen]
        simp [TcpPort.advanced, hinc, hfin, hseq]
      · rw [if_neg hlen, Segment.dataLength_of_not_pos hlen]
        simp

/-- In `ESTABLISHED` the payload is delivered, and the port acknowledges it and a FIN. -/
theorem Receives.established (hacc : Accepts s a i seg) (hstep : step s a = some s')
    (hstate : (s.g.ports i).state = .established) (hwaits : segmentWaits s.g i seg = false)
    (hsyn : seg.fin = true ∨ seg.syn = false) (hlong : seg.fin = true → seg.dataLength ≠ 0xFFFF)
    (h : Receives (s.g.ports i) irs chunks) :
    deliveries s'.g.log i = deliveries s.g.log i ++ seg.payload ∧
      Receives (s'.g.ports i) irs (chunks ++ seg.payload) := by
  have hrunning : s'.tcpTask = .running := hacc.running hstep hwaits
  obtain ⟨g, hg, hlog, h'⟩ := (hacc.answered hstep).resolve_left fun hstuck => hstuck.2.1 hrunning
  have hack := h.ackNum
  rw [hstate, TcpState.finAccepted.eq_def, add_zero] at hack
  have hseq := hacc.seqNum h.state
  have hinOrder := contiguous_payload h.inOrder (hseq.trans hack)
  have hanswered := TcpPort.ackNum_answered hstate hseq hsyn hlong
  have hsame : ((s.g.ports i).answered seg).state = (s.g.ports i).state ∧
      ((s.g.ports i).answered seg).onReceive = (s.g.ports i).onReceive := by
    unfold TcpPort.answered
    split <;> exact ⟨rfl, rfl⟩
  simp only [TcpPort.receiver, Prod.mk.injEq] at hg
  have hreceive : (g.ports i).onReceive.isSome = true := by
    rw [hg.2.1, hsame.2]
    exact h.onReceive
  have hnum : (g.ports i).ackNum =
      irs + 1 + totalLength (chunks ++ seg.payload) + if seg.fin then 1 else 0 := by
    rw [hg.2.2.1, hanswered, hack, totalLength_payload, add_assoc (irs + 1)]
  simp only [inputState, hg.1.trans (hsame.1.trans hstate)] at h'
  unfold inputEstablished at h'
  split at h'
  case isTrue hfin =>
      rw [if_pos hfin] at hnum
      cases hr : tcpEnqueueReliable g (replyParams (g.ports i) seg.srcIpv4Addr (FIN + ACK))
          portMaxDelay with
      | undefined => simp [hr, Outcome.bind, afterTask] at h'
      | blocked g' on =>
          rw [hr] at h'
          obtain rfl := Option.some.inj h'
          cases hrunning
      | done g' r =>
          rw [hr] at h'
          rw [afterTask_done h']
          have henq := tcpEnqueueReliable_done hr
          have hafter := henq.receiver i
          simp only [TcpPort.receiver, Prod.mk.injEq] at hafter
          have hreceive' : ((g'.setState i .lastAck).ports i).onReceive.isSome = true := by
            simpa [Globals.setState, hafter.2.1] using hreceive
          obtain ⟨hports, hdelivered⟩ := deliverData_spec seg hreceive'
          rw [hdelivered, hports, Globals.setState, Globals.log_setPort, henq.deliveries i, hlog]
          refine ⟨rfl, by simp [TcpState.receiving], ?_, ?_, hinOrder⟩
          · simpa [Globals.setState] using hreceive'
          · simpa [TcpState.finAccepted, hafter.2.2.1] using hnum
  case isFalse hfin =>
      rw [if_neg hfin, add_zero] at hnum
      obtain ⟨hports, hdelivered⟩ := deliverData_spec seg hreceive
      rw [afterTask_done h', hdelivered, hlog, hports]
      refine ⟨rfl, ?_, hreceive, ?_, hinOrder⟩
      · rw [hg.1, hsame.1]
        exact h.state
      · rw [hnum, hg.1, hsame.1, hstate, TcpState.finAccepted.eq_def, add_zero]

end Accepted

/-! ### Runs -/

section Step
variable {s s' : System} {a : Action} {i : PortIdx} {n : Nat}

/-- Without a segment for it a port that stays is closed by the application, or its receiver
    stays as it is. -/
theorem step_receiver (h : step s a = some s') (hnone : ∀ seg, ¬ Accepts s a i seg)
    (hn : n < s.g.nextAddr) (hinc : (s'.g.ports i).incarnation = some n) :
    (s'.g.ports i).state.finished = true ∨ (s'.g.ports i).receiver = (s.g.ports i).receiver := by
  refine (step_preserves (P := fun g => s.g.nextAddr ≤ g.nextAddr ∧
    ((g.ports i).incarnation = some n → (g.ports i).state.finished = true ∨
      (g.ports i).receiver = (s.g.ports i).receiver)) ?_ h ⟨le_rfl, fun _ => .inr rfl⟩).2 hinc
  rintro g g' he ⟨hle, hback⟩
  refine ⟨hle.trans he.nextAddr, ?_⟩
  intro hg'
  cases he.receiverChange i with
  | same hsame =>
      rw [hsame, show (g'.ports i).state = (g.ports i).state from congrArg (·.1) hsame]
      exact hback ((congrArg (·.2.2.2) hsame).symm.trans hg')
  | accepted hacc _ => exact absurd hacc (hnone _)
  | closing _ hstate => exact .inl (by rw [hstate]; rfl)
  | renewed hnew => exact absurd (hnew n hg') (by omega)

end Step

/-- Port `i` enters `SYN_RECEIVED`, or `ESTABLISHED` from `SYN_SENT`, on the segment. -/
structure Enters (s : System) (a : Action) (s' : System) (i : PortIdx) (seg : Segment) : Prop where
  accepts : Accepts s a i seg
  state : (s.g.ports i).state = .listen ∧ (s'.g.ports i).state = .synReceived ∨
    (s.g.ports i).state = .synSent ∧ (s'.g.ports i).state = .established

/-- After its peer's SYN a port has nothing delivered and nothing but the SYN acknowledged. -/
theorem Enters.receives {s s' : System} {a : Action} {i : PortIdx} {seg : Segment}
    (h : Enters s a s' i seg) (hstep : step s a = some s') (hc : bytesDelivered i s a = true)
    (hreceive : (s.g.ports i).onReceive.isSome = true) :
    deliveries s'.g.log i = deliveries s.g.log i ∧
      Receives (s'.g.ports i) seg.header.seqNum [] := by
  rcases h.state with ⟨hfrom, hto⟩ | ⟨hfrom, hto⟩
  · have hacks : acknowledges (s.g.ports i) seg = false := by simp [acknowledges, hfrom]
    obtain ⟨g, hg, hlog, h'⟩ := h.accepts.unanswered hstep hacks
    simp only [TcpPort.receiver, Prod.mk.injEq] at hg
    simp only [inputState, hg.1.trans hfrom] at h'
    unfold inputListen at h'
    split at h'
    case isTrue =>
        rw [afterTask_done h'] at hto
        simp [Globals.warn, hg.1, hfrom] at hto
    case isFalse =>
        have henq := enqueueReply_spec h'
        have hafter := henq.receiver i
        simp only [TcpPort.receiver, Prod.mk.injEq, Globals.ports_setPort,
          Function.update_self] at hafter
        refine ⟨(henq.deliveries i).trans hlog, by simp [hto, TcpState.receiving], ?_, ?_, trivial⟩
        · rw [hafter.2.1, hg.2.1]
          exact hreceive
        · simp [hafter.2.2.1, hto, TcpState.finAccepted]
  · rcases h.accepts.answered hstep with ⟨-, -, hsame, -⟩ | ⟨g, hg, hlog, h'⟩
    · rw [hsame, hfrom] at hto
      cases hto
    · have hstate : (g.ports i).state = .synSent := by
        have hanswered : ((s.g.ports i).answered seg).state = (s.g.ports i).state := by
          unfold TcpPort.answered
          split <;> rfl
        exact (congrArg (·.1) hg).trans (hanswered.trans hfrom)
      simp only [inputState, hstate] at h'
      have hs' := afterTask_done h'
      unfold inputSynSent at hs'
      split_ifs at hs' with hsyn hack
      · rw [hs'] at hto
        simp [Globals.warn, hstate] at hto
      · rw [hs'] at hto
        simp [Globals.warn, hstate] at hto
      · -- a SYN without data takes one sequence number
        obtain ⟨⟨⟨env, rfl⟩, hin⟩, hverdict⟩ := h.accepts
        have hlen : seg.dataLength = 0 := by
          simpa [bytesDelivered, hin, hverdict, hfrom, hsyn, hack] using hc
        have hinc : seg.sequenceIncrement = 1 := by
          simp [Segment.sequenceIncrement, hlen, hsyn]
        have hacks : acknowledges (s.g.ports i) seg = true := by
          simp [acknowledges, hfrom, hinc]
        rw [TcpPort.answered, if_pos hacks] at hg
        simp only [TcpPort.receiver, TcpPort.advanced, Prod.mk.injEq] at hg
        rw [hs', deliveries_callOnConnect, ports_callOnConnect]
        refine ⟨hlog, by simp [Globals.setState, TcpState.receiving], ?_, ?_, trivial⟩
        · simpa [Globals.setState, hg.2.1] using hreceive
        · simp [Globals.setState, hg.2.2.1, hinc, TcpState.finAccepted]

/-- Incarnation `n` of port `i`, as long as it lives and the application has not closed it, has
    delivered more than `base`, and just that has been acknowledged since `irs`. -/
def Follows (base : List (Chunk (BitVec 32))) (irs : BitVec 32) (i : PortIdx) (n : Nat)
    (s : System) : Prop :=
  n < s.g.nextAddr ∧ ((s.g.ports i).incarnation = some n →
    (s.g.ports i).state.finished = true ∨
      ∃ chunks, deliveries s.g.log i = base ++ chunks ∧ Receives (s.g.ports i) irs chunks)

/-- A segment does not reopen a port that the application has closed. -/
theorem Accepts.finished {s s' : System} {a : Action} {i : PortIdx} {seg : Segment}
    (hacc : Accepts s a i seg) (hstep : step s a = some s')
    (h : (s.g.ports i).state.finished = true) : (s'.g.ports i).state.finished = true := by
  rcases step_state hstep i with hsame | htransition
  · rwa [hsame]
  · generalize (s'.g.ports i).state = target at htransition ⊢
    cases htransition with
    | reset | finWait2 | timeWait | close => rfl
    | takeOver _ hstate => simp [hstate, TcpState.finished] at h
    | establish hest => rcases hest.state with ⟨hstate, -⟩ | ⟨hstate, -⟩ <;>
        simp [hstate, TcpState.finished] at h
    | finReply _ hstate => simp [hstate, TcpState.finished] at h
    | listen hcmd => exact absurd (hacc.processes.2.symm.trans hcmd.2) (by simp)
    | connect hcmd => exact absurd (hacc.processes.2.symm.trans hcmd.2) (by simp)

/-- A segment that a receiving port accepts under the condition. -/
theorem Receives.accepted {s s' : System} {a : Action} {i : PortIdx} {seg : Segment}
    {irs : BitVec 32} {chunks : List (Chunk (BitVec 32))} (hacc : Accepts s a i seg)
    (hstep : step s a = some s') (hc : bytesDelivered i s a = true)
    (h : Receives (s.g.ports i) irs chunks) :
    (s'.g.ports i).incarnation = none ∨
      ∃ more, deliveries s'.g.log i = deliveries s.g.log i ++ more ∧
        Receives (s'.g.ports i) irs (chunks ++ more) := by
  have hacc' := hacc
  obtain ⟨⟨⟨env, rfl⟩, hin⟩, hverdict⟩ := hacc'
  have hreceiving := h.state
  simp only [bytesDelivered, hin, hverdict, bne_self_eq_false, Bool.false_or] at hc
  cases hstate : (s.g.ports i).state with
  | synReceived =>
      rw [hstate] at hc
      obtain ⟨hlog, hr⟩ := h.synReceived hacc hstep hstate (by simpa using hc)
      exact .inr ⟨[], by rw [hlog, List.append_nil], by rwa [List.append_nil]⟩
  | established =>
      simp only [hstate, Bool.and_eq_true, Bool.or_eq_true, Bool.not_eq_true',
        Bool.and_eq_false_iff, beq_eq_false_iff_ne] at hc
      obtain ⟨⟨hsyn, hlong⟩, hwaits⟩ := hc
      refine .inr ⟨seg.payload, h.established hacc hstep hstate hwaits hsyn fun hfin => ?_⟩
      exact hlong.resolve_left (by simp [hfin])
  | lastAck =>
      rcases h.lastAck hacc hstep hstate with hnone | ⟨hlog, hr⟩
      · exact .inl hnone
      · exact .inr ⟨[], by rw [hlog, List.append_nil], by rwa [List.append_nil]⟩
  | closed | listen | synSent | finWait1 | closeWait | finWait2 | timeWait =>
      simp [hstate, TcpState.receiving] at hreceiving

theorem Follows.step {base : List (Chunk (BitVec 32))} {irs : BitVec 32} {i : PortIdx} {n : Nat}
    {s s' : System} {a : Action} (hs : Follows base irs i n s) (hc : bytesDelivered i s a = true)
    (h : step s a = some s') : Follows base irs i n s' := by
  obtain ⟨hn, hfollows⟩ := hs
  have hle : s.g.nextAddr ≤ s'.g.nextAddr :=
    step_preserves (P := fun g => s.g.nextAddr ≤ g.nextAddr)
      (fun _ _ he hle => hle.trans he.nextAddr) h le_rfl
  refine ⟨lt_of_lt_of_le hn hle, ?_⟩
  intro hinc
  by_cases hacc : ∃ seg, Accepts s a i seg
  · obtain ⟨seg, hacc⟩ := hacc
    rcases hfollows (step_incarnation h hn hinc) with hfinished | ⟨chunks, hlog, hr⟩
    · exact .inl (hacc.finished h hfinished)
    · rcases hr.accepted hacc h hc with hnone | ⟨more, hlog', hr'⟩
      · simp [hnone] at hinc
      · exact .inr ⟨chunks ++ more, by rw [hlog', hlog, List.append_assoc], hr'⟩
  · have hnone : ∀ seg, ¬ Accepts s a i seg := fun seg h => hacc ⟨seg, h⟩
    rcases step_receiver h hnone hn hinc with hfinished | hsame
    · exact .inl hfinished
    · rcases hfollows (step_incarnation h hn hinc) with hfinished | ⟨chunks, hlog, hr⟩
      · left
        rwa [show (s'.g.ports i).state = (s.g.ports i).state from congrArg (·.1) hsame]
      · exact .inr ⟨chunks, (step_deliveries h hnone).trans hlog, hr.congr hsame⟩

/-- From the step in which a port with an `on_receive` learns its peer's sequence number until
    the application closes it, in every run whose steps meet the condition for the port: its
    `ack_num`, relative to one past that number, is the number of bytes it has delivered since,
    plus one for an accepted FIN, and these bytes have been delivered in order. -/
theorem acknowledged_eq_delivered {net : NetContext} {as bs : List Action} {a : Action}
    {s s₁ s₂ : System} (hrun : run step (boot net) as = some s) (hstep : step s a = some s₁)
    (hrun' : run step s₁ bs = some s₂) {i : PortIdx} {n : Nat} {seg : Segment}
    (henters : Enters s a s₁ i seg) (hreceive : (s.g.ports i).onReceive.isSome = true)
    (hg : Guarded step (bytesDelivered i · ·) s (a :: bs))
    (hinc : (s₁.g.ports i).incarnation = some n) (hsame : (s₂.g.ports i).incarnation = some n)
    (hopen : (s₂.g.ports i).state.receiving = true) :
    ∃ chunks, deliveries s₂.g.log i = deliveries s.g.log i ++ chunks ∧
      AcksDelivered (s₂.g.ports i) seg.header.seqNum chunks := by
  obtain ⟨hc, hg⟩ := guarded_cons.mp hg
  obtain ⟨hlog, hr⟩ := henters.receives hstep hc hreceive
  have hn : n < s₁.g.nextAddr := by
    have hrun₁ : run step (boot net) (as ++ [a]) = some s₁ := by
      simp [run_append, hrun, run_cons, hstep]
    exact fresh_of_run hrun₁ i n hinc
  have hfollows : Follows (deliveries s.g.log i) seg.header.seqNum i n s₂ :=
    run_invariant (fun _ _ _ hs hc h => hs.step hc h)
      ⟨hn, fun _ => .inr ⟨[], by rw [hlog, List.append_nil], hr⟩⟩ (hg s₁ hstep) hrun'
  rcases hfollows.2 hsame with hfinished | ⟨chunks, hchunks, hr⟩
  · cases hstate : (s₂.g.ports i).state <;>
      simp_all [TcpState.finished, TcpState.receiving]
  · refine ⟨chunks, hchunks, ?_, hr.inOrder⟩
    rw [hr.ackNum]
    ring

/-- The host listens and a SYN with sequence number 0 has arrived. -/
def synArrived : List Action := (handshake peerNet.ip).take 3

/-- The step from `s` is the one in which port 0 takes the SYN. -/
def takesSyn (s : System) : Bool :=
  (s.g.ports 0).state == .listen && (s.g.ports 0).onReceive.isSome &&
    (match (selectInput s.g).2 with
      | .segment seg => checkSegment s.g seg == .accept 0 && seg.header.seqNum == 0
      | _ => false) &&
    (step s iterates).any fun s' =>
      (s'.g.ports 0).state == .synReceived && (s'.g.ports 0).incarnation == some 0

/-- Such a step enters `SYN_RECEIVED`. -/
theorem enters_of_takesSyn {s : System} (h : takesSyn s = true) :
    ∃ s₁ seg, step s iterates = some s₁ ∧ Enters s iterates s₁ 0 seg ∧ seg.header.seqNum = 0 ∧
      (s.g.ports 0).onReceive.isSome = true ∧ (s₁.g.ports 0).incarnation = some 0 := by
  simp only [takesSyn, Bool.and_eq_true, beq_iff_eq, Option.any_eq_true] at h
  obtain ⟨⟨⟨hlisten, hreceive⟩, hsegment⟩, s₁, hstep, hstate, hinc⟩ := h
  split at hsegment
  case h_1 seg hin =>
      simp only [Bool.and_eq_true, beq_iff_eq] at hsegment
      exact ⟨s₁, seg, hstep, ⟨⟨⟨⟨_, rfl⟩, hin⟩, hsegment.1⟩, .inl ⟨hlisten, hstate⟩⟩, hsegment.2,
        hreceive, hinc⟩
  case h_2 => cases hsegment

/-- The rest of a handshake, then two bytes and a FIN. -/
def receivesBytes : List Action :=
  (handshake peerNet.ip).drop 4 ++ [arrives peerNet.ip 5000 80 1 1 (ACK + PSH) [42, 43], iterates,
    iterates, arrives peerNet.ip 5000 80 3 1 (FIN + ACK) [], iterates]

/-- The host acknowledges the two bytes that it delivers, and the FIN. -/
theorem acknowledged_eq_delivered_bytes :
    ∃ s s₁ s₂ seg chunks, run step (boot hostNet) synArrived = some s ∧
      step s iterates = some s₁ ∧ run step s₁ receivesBytes = some s₂ ∧
      Enters s iterates s₁ 0 seg ∧ (s₂.g.ports 0).ackNum = 4 ∧
      deliveries s₂.g.log 0 = deliveries s.g.log 0 ++ chunks ∧
      AcksDelivered (s₂.g.ports 0) seg.header.seqNum chunks := by
  obtain ⟨s, hs, hend⟩ := run_any
    (show (run step (boot hostNet) synArrived).any (fun s => takesSyn s &&
      ((step s iterates).bind fun s₁ => run step s₁ receivesBytes).any fun s₂ =>
        (s₂.g.ports 0).state == .lastAck && (s₂.g.ports 0).ackNum == 4 &&
          (s₂.g.ports 0).incarnation == some 0) = true by decide +kernel)
  rw [Bool.and_eq_true] at hend
  obtain ⟨s₁, seg, hstep, henters, -, hreceive, hinc⟩ := enters_of_takesSyn hend.1
  have hend := hend.2
  simp only [hstep, Option.bind_some, Option.any_eq_true, Bool.and_eq_true, beq_iff_eq] at hend
  obtain ⟨s₂, hs₂, ⟨hstate, hnum⟩, hsame⟩ := hend
  have hguard : Guarded step (bytesDelivered 0 · ·) (boot hostNet)
      (synArrived ++ iterates :: receivesBytes) := by decide +kernel
  obtain ⟨chunks, hchunks, hacks⟩ := acknowledged_eq_delivered hs hstep hs₂ henters hreceive
    ((guarded_append hs).mp hguard).2 hinc hsame (by simp [hstate, TcpState.receiving])
  exact ⟨s, s₁, s₂, seg, chunks, hs, hstep, hs₂, henters, hnum, hchunks, hacks⟩

/-- The rest of a handshake whose last ACK carries a byte. -/
def bytesWithHandshake : List Action :=
  [iterates, arrives peerNet.ip 5000 80 1 1 (ACK + PSH) [42], iterates]

/-- The byte is acknowledged and never delivered. -/
theorem acknowledged_not_delivered :
    ∃ s s₁ s₂ seg, run step (boot hostNet) synArrived = some s ∧ step s iterates = some s₁ ∧
      run step s₁ bytesWithHandshake = some s₂ ∧ Enters s iterates s₁ 0 seg ∧
      (s.g.ports 0).onReceive.isSome = true ∧ (s₁.g.ports 0).incarnation = some 0 ∧
      (s₂.g.ports 0).incarnation = some 0 ∧ (s₂.g.ports 0).state = .established ∧
      ¬ ∃ chunks, deliveries s₂.g.log 0 = deliveries s.g.log 0 ++ chunks ∧
        AcksDelivered (s₂.g.ports 0) seg.header.seqNum chunks := by
  obtain ⟨s, hs, hend⟩ := run_any
    (show (run step (boot hostNet) synArrived).any (fun s => takesSyn s &&
      ((step s iterates).bind fun s₁ => run step s₁ bytesWithHandshake).any fun s₂ =>
        (s₂.g.ports 0).state == .established && (s₂.g.ports 0).ackNum == 2 &&
          (s₂.g.ports 0).incarnation == some 0 && (deliveries s₂.g.log 0).isEmpty) = true by
            decide +kernel)
  rw [Bool.and_eq_true] at hend
  obtain ⟨s₁, seg, hstep, henters, hseq, hreceive, hinc⟩ := enters_of_takesSyn hend.1
  have hend := hend.2
  simp only [hstep, Option.bind_some, Option.any_eq_true, Bool.and_eq_true, beq_iff_eq,
    List.isEmpty_iff] at hend
  obtain ⟨s₂, hs₂, ⟨⟨hstate, hnum⟩, hsame⟩, hnothing⟩ := hend
  refine ⟨s, s₁, s₂, seg, hs, hstep, hs₂, henters, hreceive, hinc, hsame, hstate, ?_⟩
  rintro ⟨chunks, hchunks, hacks⟩
  obtain rfl : chunks = [] := (List.append_eq_nil_iff.mp (hchunks.symm.trans hnothing)).2
  have hfalse := hacks.ackNum
  rw [hnum, hseq, hstate] at hfalse
  exact absurd hfalse (by decide)

end NetStack.Tcp
