import NetStack.Tcp.Proofs.Operations
import Mathlib.Logic.Relation

/-!
# The effects a step is made of

`Effect s a s'` says once what the step `a` from `s` to `s'` can do to the state: each
constructor is one effect, taken in some state of the step, with the guard under which the
code takes it. Every invariant of the component is proved effect by effect.
-/

namespace NetStack.Tcp
open NetStack.Lib

/-- A port without what ACK processing and retransmission change. -/
def TcpPort.settled (p : TcpPort) : TcpPort :=
  { p with unacked := fun _ => {}, unackedSlots := none, otherWindow := 0, ackNum := 0 }

/-- A state in the middle of a step: the ports are still those of the step's start, but for
    acknowledged entries and acknowledgement numbers, and `acks` has been queued. -/
structure Stage (g₀ : Globals) (acks : List TcpTransmitParams) (g : Globals) : Prop where
  settled : ∀ j, (g.ports j).settled = (g₀.ports j).settled
  incarnation : ∀ j, (g.ports j).incarnation = (g₀.ports j).incarnation
  sendQueue : g.sendQueue = g₀.sendQueue ++ acks

theorem TcpPort.settled_of_quiet {g g' : Globals} (h : Quiet g g') (j : PortIdx) :
    (g'.ports j).settled = (g.ports j).settled := h.field j _ fun _ _ => rfl

theorem Stage.sendQueue_eq {g₀ g : Globals} (h : Stage g₀ [] g) : g.sendQueue = g₀.sendQueue := by
  simpa using h.sendQueue

theorem Stage.refl (g : Globals) : Stage g [] g := ⟨fun _ => rfl, fun _ => rfl, by simp⟩

theorem Stage.quiet {g₀ g g' : Globals} {acks : List TcpTransmitParams} (h : Stage g₀ acks g)
    (hquiet : Quiet g g') : Stage g₀ acks g' :=
  ⟨fun j => (TcpPort.settled_of_quiet hquiet j).trans (h.settled j),
    fun j => (hquiet.incarnation j).trans (h.incarnation j), hquiet.sendQueue.trans h.sendQueue⟩

theorem TcpPort.settled_field {p p' : TcpPort} (h : p.settled = p'.settled) {β : Type}
    (f : TcpPort → β) (hf : ∀ q, f q = f q.settled) : f p = f p' := by
  rw [hf p, hf p', h]

theorem TcpPort.state_of_settled {p p' : TcpPort} (h : p.settled = p'.settled) :
    p.state = p'.state := TcpPort.settled_field h _ fun _ => rfl

theorem TcpPort.key_of_settled {p p' : TcpPort} (h : p.settled = p'.settled) : p.key = p'.key :=
  TcpPort.settled_field h _ fun _ => rfl

theorem TcpPort.seqNum_of_settled {p p' : TcpPort} (h : p.settled = p'.settled) :
    p.seqNum = p'.seqNum := TcpPort.settled_field h _ fun _ => rfl

theorem TcpPort.selfPortNum_of_settled {p p' : TcpPort} (h : p.settled = p'.settled) :
    p.selfPortNum = p'.selfPortNum := TcpPort.settled_field h _ fun _ => rfl

section Stage
variable {g₀ g : Globals} {acks : List TcpTransmitParams} (h : Stage g₀ acks g)
include h

theorem Stage.state (j : PortIdx) : (g.ports j).state = (g₀.ports j).state :=
  TcpPort.state_of_settled (h.settled j)

theorem Stage.key (j : PortIdx) : (g.ports j).key = (g₀.ports j).key :=
  TcpPort.key_of_settled (h.settled j)

theorem Stage.seqNum (j : PortIdx) : (g.ports j).seqNum = (g₀.ports j).seqNum :=
  TcpPort.seqNum_of_settled (h.settled j)

theorem Stage.findParamsPort (params : TcpTransmitParams) :
    findParamsPort g params = Tcp.findParamsPort g₀ params :=
  findParamsPort_congr h.key params

end Stage

/-- The step is an iteration of `tcp_task` on `input`. -/
def Processes (s : System) (a : Action) (input : TaskInput) : Prop :=
  (∃ env, a = .tcpTask env) ∧ (selectInput s.g).2 = input

/-- The step is an iteration of `tcp_task` on a segment that passes its checks for port `i`. -/
structure Accepts (s : System) (a : Action) (i : PortIdx) (seg : Segment) : Prop where
  processes : Processes s a (.segment seg)
  verdict : checkSegment s.g seg = .accept i

/-- The segment advances `ack_num` of the port and has an ACK queued. -/
def acknowledges (port : TcpPort) (seg : Segment) : Bool :=
  seg.sequenceIncrement > 0 && port.state != .lastAck && port.state != .listen

/-- What acknowledging the segment queues. -/
def acksOf (port : TcpPort) (seg : Segment) : List TcpTransmitParams :=
  if acknowledges port seg then [replyParams port seg.srcIpv4Addr ACK] else []

/-- The port after it has acknowledged the segment. -/
def TcpPort.advanced (p : TcpPort) (seg : Segment) : TcpPort :=
  { p with ackNum := seg.header.seqNum + seg.sequenceIncrement.setWidth 32 }

/-- The listening port after it has taken the segment's SYN. -/
def TcpPort.takenOver (p : TcpPort) (seg : Segment) : TcpPort :=
  { p with
    state := .synReceived
    otherIpv4Addr := seg.srcIpv4Addr
    otherPortNum := seg.header.srcPort
    ackNum := seg.header.seqNum + 1 }

/-- The segment releases an entry of the port, or a slot is free anyhow. -/
def slotAvailable (port : TcpPort) (seg : Segment) : Bool :=
  0 < port.slots ||
    (seg.ack && seg.header.ackNum ≤ port.seqNum &&
      (firstIdx fun j => (port.unacked j).inUse &&
        (port.unacked j).seqNum ≤ seg.header.ackNum).isSome)

/-- The states in which a segment can end the connection, and `on_disconnect` is called. -/
def TcpState.disconnects : TcpState → Bool
  | .finWait1 | .finWait2 | .lastAck => true
  | .closed | .listen | .synSent | .synReceived | .established | .closeWait | .timeWait => false

/-- Why a port is reset. -/
inductive ResetCause (s : System) (a : Action) (i : PortIdx) : Prop
  | rst (seg : Segment) (h : Processes s a (.segment seg))
      (hverdict : checkSegment s.g seg = .reset i)
  | lastAck (seg : Segment) (h : Accepts s a i seg) (hstate : (s.g.ports i).state = .lastAck)
      (hack : seg.ack = true) (hnum : seg.header.ackNum = (s.g.ports i).seqNum)
  | timeWait (h : Processes s a .scan) (hover : timeWaitOver s.g.tick (s.g.ports i) = true)
      (hlive : (s.g.ports i).selfPortNum ≠ 0)

/-- The scan retransmits entry `j` of port `p`, whose calls the environment decides by `env`. -/
structure Due (s : System) (a : Action) (p : PortIdx) (j : UnackedIdx) (env : SendEnv)
    (g : Globals) : Prop where
  action : ∃ e : TaskEnv, a = .tcpTask e ∧ env = e.scan p j
  input : (selectInput s.g).2 = .scan
  live : (s.g.ports p).selfPortNum ≠ 0
  stays : timeWaitOver s.g.tick (s.g.ports p) = false
  due : retransmitDue s.g.tick ((s.g.ports p).unacked j) = true
  settled : (g.ports p).settled = (s.g.ports p).settled
  entry : ∃ sentAt, (g.ports p).unacked j = { (s.g.ports p).unacked j with sentAt := sentAt }

/-- One effect of the step `a` from `s` to `s'`. -/
inductive Effect (s : System) (a : Action) (s' : System) : Globals → Globals → Prop
  | quiet {g g' : Globals} (h : Quiet g g') : Effect s a s' g g'
  /-- `tcp_send` reaches `tcp_enqueue_reliable`. -/
  | appSend {g g' : Globals} {inCallback : Bool} {src dst : BitVec 16} {addr : Ipv4Addr}
      {data : Option Memory} {len : BitVec 16} {timeout : BitVec 32} {i : PortIdx}
      {block : Option Block} (ha : a = .tcpSend inCallback src dst addr data len timeout)
      (hstage : Stage s.g [] g) (hfind : findPort s.g src dst addr = some i)
      (hblock : block = data.map fun bytes => ⟨s.g.nextAddr, bytes⟩)
      (h : Enqueue True g (tcpSendParams (s.g.ports i) block len) g') : Effect s a s' g g'
  /-- The task that called `tcp_send` waits for a slot. -/
  | appWait {g : Globals} {inCallback : Bool} {src dst : BitVec 16} {addr : Ipv4Addr}
      {data : Option Memory} {len : BitVec 16} {timeout : BitVec 32} {i : PortIdx}
      {block : Option Block} {sem : CountingSemaphore maxUnacked}
      (ha : a = .tcpSend inCallback src dst addr data len timeout)
      (hstage : Stage s.g [] g) (hfind : findPort s.g src dst addr = some i)
      (hblock : block = data.map fun bytes => ⟨s.g.nextAddr, bytes⟩)
      (hsem : (g.ports i).unackedSlots = some sem) :
      Effect s a s' g
        { g with
          senders := g.senders ++
            [⟨tcpSendParams (s.g.ports i) block len, i, sem.handle, timeout, false⟩] }
  /-- A waiting task gets its slot. -/
  | resumed {g g' : Globals} {k : Nat} {deletedTake : Bool} {t : Sender}
      (ha : a = .resumeSender k deletedTake) (ht : s.g.senders[k]? = some t)
      (hstage : Stage s.g [] g) (hincarnation : (g.ports t.port).incarnation = some t.handle)
      (h : Taken g t.port t.params g') : Effect s a s' g g'
  /-- A waiting task goes on although its semaphore has been deleted. -/
  | resumedStale {g : Globals} {k : Nat} {t : Sender} (ha : a = .resumeSender k true)
      (ht : s.g.senders[k]? = some t) (hstage : Stage s.g [] g)
      (hincarnation : (g.ports t.port).incarnation ≠ some t.handle)
      (hopen : (g.ports t.port).state ≠ .closed)
      (hroom : g.sendQueue.length < sendQueueLength) :
      Effect s a s' g ((g.pushSend t.params).emit (.queued t.port t.handle t.params))
  /-- Such a task finds the queue full and gives back a slot that it did not take. -/
  | strayGive {g : Globals} {k : Nat} {t : Sender} (ha : a = .resumeSender k true)
      (ht : s.g.senders[k]? = some t) (hstage : Stage s.g [] g)
      (hincarnation : (g.ports t.port).incarnation ≠ some t.handle)
      (hopen : (g.ports t.port).state ≠ .closed)
      (hfull : ¬ g.sendQueue.length < sendQueueLength) :
      Effect s a s' g (g.setPort t.port (g.ports t.port).given)
  /-- A dequeued request is given up. -/
  | dropped {g : Globals} {env : TaskEnv} {params : TcpTransmitParams}
      {rest : List TcpTransmitParams} (ha : a = .tcpTask env)
      (hin : (selectInput s.g).2 = .send params) (hstage : Stage s.g [] g)
      (hqueue : g.sendQueue = params :: rest)
      (hwhy : env.send.malloc = none ∨ findParamsPort s.g params = none ∨
        ∃ i, findParamsPort s.g params = some i ∧ consumesSequence params = true ∧
          findEmptyUnacked (s.g.ports i) = none) :
      Effect s a s' g { g with sendQueue := rest }
  /-- A dequeued request that consumes no sequence space is transmitted. -/
  | passed {g : Globals} {env : TaskEnv} {params : TcpTransmitParams}
      {rest : List TcpTransmitParams} {i : PortIdx} {t : Transmission} (ha : a = .tcpTask env)
      (hin : (selectInput s.g).2 = .send params) (hstage : Stage s.g [] g)
      (hqueue : g.sendQueue = params :: rest) (hmalloc : env.send.malloc ≠ none)
      (hfind : findParamsPort g params = some i) (hplain : consumesSequence params = false)
      (ht : Sends g i params params.seqNum t) :
      Effect s a s' g (Globals.emit { g with sendQueue := rest } (.transmit t))
  /-- A dequeued request that consumes sequence space is recorded and transmitted. -/
  | recorded {g : Globals} {env : TaskEnv} {params : TcpTransmitParams}
      {rest : List TcpTransmitParams} {i : PortIdx} {j : UnackedIdx} {now : BitVec 32}
      {t : Transmission} (ha : a = .tcpTask env)
      (hin : (selectInput s.g).2 = .send params) (hstage : Stage s.g [] g)
      (hqueue : g.sendQueue = params :: rest) (hmalloc : env.send.malloc ≠ none)
      (hfind : findParamsPort g params = some i) (hconsumes : consumesSequence params = true)
      (hempty : findEmptyUnacked (g.ports i) = some j)
      (ht : Sends g i params (g.ports i).seqNum t) :
      Effect s a s' g
        ((Globals.setPort { g with sendQueue := rest } i
          (recordUnacked (g.ports i) j params now)).emit (.transmit t))
  /-- The scan stamps a due entry. -/
  | touched {g : Globals} {p : PortIdx} {j : UnackedIdx} {env : SendEnv} {now : BitVec 32}
      (hdue : Due s a p j env g) :
      Effect s a s' g (g.setUnacked p j { (g.ports p).unacked j with sentAt := now })
  /-- The scan retransmits a due entry. -/
  | retransmitted {g : Globals} {p q : PortIdx} {j : UnackedIdx} {env : SendEnv}
      {t : Transmission} (hdue : Due s a p j env g)
      (hfind : findParamsPort g (retransmitParams (g.ports p) ((g.ports p).unacked j)) = some q)
      (ht : Sends g q (retransmitParams (g.ports p) ((g.ports p).unacked j))
        ((g.ports p).unacked j).seqNum t) :
      Effect s a s' g (g.emit (.transmit t))
  /-- The retransmission of a due entry fails and the scan gives the entry up. -/
  | gaveUp {g : Globals} {p : PortIdx} {j : UnackedIdx} {env : SendEnv}
      (hdue : Due s a p j env g) (hfail : env.malloc = none ∨ env.ipv4Accepts = false) :
      Effect s a s' g (g.setPort p ((g.ports p).released j))
  | reset {g g' : Globals} {i : PortIdx} (hwhy : ResetCause s a i)
      (hsettled : (g.ports i).settled = (s.g.ports i).settled)
      (hincarnation : (g.ports i).incarnation = (s.g.ports i).incarnation)
      (hstage : Stage s.g [] g ∨ Processes s a .scan) (h : Reset g i g') : Effect s a s' g g'
  /-- A segment acknowledges an entry. -/
  | released {g : Globals} {i : PortIdx} {j : UnackedIdx} {seg : Segment}
      (hacc : Accepts s a i seg) (hstage : Stage s.g [] g) (hack : seg.ack = true)
      (hnum : seg.header.ackNum ≤ (g.ports i).seqNum)
      (huse : ((g.ports i).unacked j).inUse = true)
      (hseq : ((g.ports i).unacked j).seqNum ≤ seg.header.ackNum) :
      Effect s a s' g
        ((g.setPort i ((g.ports i).released j)).emit
          (.acked i (g.ports i).incarnation ((g.ports i).unacked j)))
  /-- A segment is acknowledged. -/
  | acknowledged {g : Globals} {i : PortIdx} {seg : Segment} (hacc : Accepts s a i seg)
      (hstage : Stage s.g [] g) (hacks : acknowledges (s.g.ports i) seg = true)
      (hroom : g.sendQueue.length < sendQueueLength) :
      Effect s a s' g
        ((g.setPort i ((g.ports i).advanced seg)).pushSend
          (replyParams (s.g.ports i) seg.srcIpv4Addr ACK))
  /-- `ack_num` has been advanced and `tcp_task` waits for a place for the ACK. -/
  | ackStuck {g : Globals} {i : PortIdx} {seg : Segment} (hacc : Accepts s a i seg)
      (hstage : Stage s.g [] g) (hacks : acknowledges (s.g.ports i) seg = true)
      (hfull : ¬ g.sendQueue.length < sendQueueLength) (hs' : s'.tcpTask ≠ .running) :
      Effect s a s' g (g.setPort i ((g.ports i).advanced seg))
  /-- A SYN takes over a listening port. -/
  | tookOver {g g' : Globals} {i : PortIdx} {seg : Segment} (hacc : Accepts s a i seg)
      (hstage : Stage s.g [] g) (hstate : (s.g.ports i).state = .listen)
      (hsyn : seg.syn = true)
      (hslots : slotAvailable (s.g.ports i) seg = true → (g.ports i).unackedSlots.isSome →
        0 < (g.ports i).slots)
      (h : Enqueue (s'.tcpTask ≠ .running) (g.setPort i ((g.ports i).takenOver seg))
        (replyParams ((g.ports i).takenOver seg) seg.srcIpv4Addr (SYN + ACK)) g') :
      Effect s a s' g g'
  | established {g : Globals} {i : PortIdx} {seg : Segment} (hacc : Accepts s a i seg)
      (hstage : Stage s.g (acksOf (s.g.ports i) seg) g)
      (hfrom : (s.g.ports i).state = .synSent ∧ seg.syn = true ∨
        (s.g.ports i).state = .synReceived ∧ seg.header.ackNum = (s.g.ports i).seqNum)
      (hack : seg.ack = true) :
      Effect s a s' g (callOnConnect (g.setState i .established) i)
  /-- The payload of a segment is delivered. -/
  | delivered {g : Globals} {i : PortIdx} {seg : Segment} (hacc : Accepts s a i seg)
      (hstate : (s.g.ports i).state = .established)
      (hincarnation : (g.ports i).incarnation = (s.g.ports i).incarnation)
      (hlen : seg.dataLength > 0) :
      Effect s a s' g
        (g.emit (.onReceive i (g.ports i).incarnation seg.buffer seg.header.headerLength
          seg.dataLength))
  /-- The peer's FIN is answered with a FIN. -/
  | finReplied {g g' : Globals} {i : PortIdx} {seg : Segment} (hacc : Accepts s a i seg)
      (hstage : Stage s.g (acksOf (s.g.ports i) seg) g)
      (hstate : (s.g.ports i).state = .established) (hfin : seg.fin = true)
      (h : Enqueue False g (replyParams (s.g.ports i) seg.srcIpv4Addr (FIN + ACK)) g') :
      Effect s a s' g (g'.setState i .lastAck)
  | finWait2 {g : Globals} {i : PortIdx} {seg : Segment} (hacc : Accepts s a i seg)
      (hstage : Stage s.g (acksOf (s.g.ports i) seg) g)
      (hstate : (s.g.ports i).state = .finWait1) (hfin : seg.fin = false)
      (hack : seg.ack = true) : Effect s a s' g (g.setState i .finWait2)
  | timeWait {g : Globals} {i : PortIdx} {seg : Segment} {now : BitVec 32}
      (hacc : Accepts s a i seg) (hstage : Stage s.g (acksOf (s.g.ports i) seg) g)
      (hstate : (s.g.ports i).state = .finWait1 ∨ (s.g.ports i).state = .finWait2)
      (hfin : seg.fin = true) :
      Effect s a s' g
        (g.setPort i { g.ports i with state := .timeWait, enteredTimeWaitAt := now })
  /-- `on_disconnect` is called for the port that a segment has closed. -/
  | disconnected {g : Globals} {i : PortIdx} {seg : Segment} (hacc : Accepts s a i seg)
      (hstate : (s.g.ports i).state.disconnects = true) :
      Effect s a s' g (g.emit (.onDisconnect i (s.g.ports i).incarnation))
  /-- A close command finds its port. -/
  | closing {g g' : Globals} {self other : BitVec 16} {addr : Ipv4Addr} {i : PortIdx}
      (hcmd : Processes s a (.cmd (.close self other addr))) (hstage : Stage s.g [] g)
      (hfind : findPort s.g self other addr = some i)
      (h : Enqueue (s'.tcpTask ≠ .running) (g.setState i .finWait1)
        (finRequest (s.g.ports i) addr) g') : Effect s a s' g g'
  /-- A listen command finds a free port. -/
  | listening {g : Globals} {self : BitVec 16} {onReceive onConnect onDisconnect : Option FnPtr}
      {i : PortIdx}
      (hcmd : Processes s a (.cmd (.createAndListen self onReceive onConnect onDisconnect)))
      (hstage : Stage s.g [] g) (hunused : findUnusedPort s.g = some i) :
      Effect s a s' g
        (Globals.setPort { g with nextAddr := g.nextAddr + 1 } i
          { newPort self g.nextAddr onReceive onConnect onDisconnect with state := .listen })
  /-- A connect command finds a free port. -/
  | connecting {g g' : Globals} {self other : BitVec 16} {addr : Ipv4Addr}
      {onReceive onConnect onDisconnect : Option FnPtr} {i : PortIdx}
      (hcmd : Processes s a
        (.cmd (.createAndConnect self other addr onReceive onConnect onDisconnect)))
      (hstage : Stage s.g [] g) (hunused : findUnusedPort s.g = some i)
      (h : Enqueue (s'.tcpTask ≠ .running)
        (Globals.setPort { g with nextAddr := g.nextAddr + 1 } i
          (connectingPort (newPort self g.nextAddr onReceive onConnect onDisconnect) other addr))
        (synRequest
          (connectingPort (newPort self g.nextAddr onReceive onConnect onDisconnect) other addr)
          addr) g') : Effect s a s' g g'

/-- A sequence of effects of one step. -/
abbrev Effects (s : System) (a : Action) (s' : System) : Globals → Globals → Prop :=
  Relation.ReflTransGen (Effect s a s')

/-- A request with the key of a segment that resolved to its port by key resolves to it. -/
theorem findParamsPort_of_segment {g : Globals} {seg : Segment} {i : PortIdx}
    (hfind : findSegmentPort g seg = some i) (hstate : (g.ports i).state ≠ .listen) :
    findPort g seg.header.dstPort seg.header.srcPort seg.srcIpv4Addr = some i := by
  unfold findSegmentPort at hfind
  split at hfind
  case h_1 j hj => exact hj.trans hfind
  case h_2 =>
      split at hfind
      · exact absurd (findListeningPort_some hfind).2.1 hstate
      · cases hfind

/-- A listening port that has taken over the key of a segment is the first with that key. -/
theorem findParamsPort_takenOver {g : Globals} {seg : Segment} {i : PortIdx}
    (hfind : findSegmentPort g seg = some i) (control : BitVec 8) :
    findParamsPort (g.setPort i ((g.ports i).takenOver seg))
      (replyParams ((g.ports i).takenOver seg) seg.srcIpv4Addr control) = some i := by
  have hkey : (replyParams ((g.ports i).takenOver seg) seg.srcIpv4Addr control).key =
      ((g.ports i).selfPortNum, seg.header.srcPort, seg.srcIpv4Addr) := rfl
  rw [findParamsPort_eq_some_iff, hkey]
  refine ⟨by simp [TcpPort.key, TcpPort.takenOver], ?_⟩
  intro j hj
  have hself : (g.ports i).selfPortNum = seg.header.dstPort ∧
      (g.ports j).key ≠ seg.key := by
    unfold findSegmentPort at hfind
    split at hfind
    case h_1 k hk =>
        obtain rfl := Option.some.inj hfind
        obtain ⟨hki, hfirst⟩ := findPort_eq_some_iff.mp hk
        exact ⟨congrArg Prod.fst hki, hfirst j hj⟩
    case h_2 hnone =>
        split at hfind
        · exact ⟨(findListeningPort_some hfind).1, findPort_eq_none_iff.mp hnone j⟩
        · cases hfind
  simpa [ne_of_lt hj, hself.1, Segment.key] using hself.2

end NetStack.Tcp
