import NetStack.Tcp.Proofs.Requests

/-!
# Moves of connections

A connection-level view of a step: what happens to the states, keys, sequence numbers and
incarnations of the ports, to `send_queue` and to the transmissions, without slots, entries
and acknowledgement numbers. `Alike` is equality in this view, and every effect is a move up
to `Alike`.
-/

namespace NetStack.Tcp
open NetStack.Lib

/-- Nothing has changed in the connection-level view. -/
structure Alike (g g' : Globals) : Prop where
  settled : ∀ j, (g'.ports j).settled = (g.ports j).settled
  incarnation : ∀ j, (g'.ports j).incarnation = (g.ports j).incarnation
  sendQueue : g'.sendQueue = g.sendQueue
  senders : SendersFrom g.senders g'.senders
  transmissions : transmissions g'.log = transmissions g.log
  nextAddr : g.nextAddr ≤ g'.nextAddr

theorem Alike.refl (g : Globals) : Alike g g :=
  ⟨fun _ => rfl, fun _ => rfl, rfl, SendersFrom.refl _, rfl, le_rfl⟩

theorem Alike.trans {g g' g'' : Globals} (h : Alike g g') (h' : Alike g' g'') : Alike g g'' :=
  ⟨fun j => (h'.settled j).trans (h.settled j),
    fun j => (h'.incarnation j).trans (h.incarnation j), h'.sendQueue.trans h.sendQueue,
    h.senders.trans h'.senders, h'.transmissions.trans h.transmissions,
    h.nextAddr.trans h'.nextAddr⟩

theorem Quiet.alike {g g' : Globals} (h : Quiet g g') : Alike g g' :=
  ⟨TcpPort.settled_of_quiet h, h.incarnation, h.sendQueue, h.senders, h.log.transmissions_eq,
    h.nextAddr⟩

section Alike
variable {g g' : Globals} (h : Alike g g') (j : PortIdx)
include h

theorem Alike.state : (g'.ports j).state = (g.ports j).state :=
  TcpPort.state_of_settled (h.settled j)

theorem Alike.key : (g'.ports j).key = (g.ports j).key := TcpPort.key_of_settled (h.settled j)

theorem Alike.seqNum : (g'.ports j).seqNum = (g.ports j).seqNum :=
  TcpPort.seqNum_of_settled (h.settled j)

end Alike

/-- A change of one port that the view does not show. -/
theorem alike_setPort {g : Globals} {i : PortIdx} {p : TcpPort}
    (hsettled : p.settled = (g.ports i).settled)
    (hincarnation : p.incarnation = (g.ports i).incarnation) : Alike g (g.setPort i p) := by
  refine ⟨fun j => ?_, fun j => ?_, rfl, SendersFrom.refl _, rfl, le_rfl⟩ <;> by_cases hj : j = i
  · subst hj
    simpa using hsettled
  · simp [hj]
  · subst hj
    simpa using hincarnation
  · simp [hj]

/-- An event that is no transmission does not show in the view. -/
theorem alike_emit (g : Globals) {e : Event} (he : e.transmission? = none) : Alike g (g.emit e) :=
  ⟨fun _ => rfl, fun _ => rfl, rfl, SendersFrom.refl _, by simp [transmissions, he], le_rfl⟩

/-- Requests join `send_queue`. -/
def Globals.queueing (g : Globals) (items : List TcpTransmitParams) : Globals :=
  { g with sendQueue := g.sendQueue ++ items }

section Queueing
variable (g : Globals) (items : List TcpTransmitParams)

@[simp] theorem Globals.ports_queueing : (g.queueing items).ports = g.ports := rfl
@[simp] theorem Globals.sendQueue_queueing :
    (g.queueing items).sendQueue = g.sendQueue ++ items := rfl
@[simp] theorem Globals.senders_queueing : (g.queueing items).senders = g.senders := rfl
@[simp] theorem Globals.nextAddr_queueing : (g.queueing items).nextAddr = g.nextAddr := rfl
@[simp] theorem Globals.log_queueing : (g.queueing items).log = g.log := rfl
@[simp] theorem Globals.queueing_nil : g.queueing [] = g := by simp [queueing]

end Queueing

theorem alike_pushSend (g : Globals) (params : TcpTransmitParams) :
    Alike (g.queueing [params]) (g.pushSend params) :=
  ⟨fun _ => rfl, fun _ => rfl, rfl, SendersFrom.refl _, rfl, le_rfl⟩

theorem Alike.queueing {g g' : Globals} (h : Alike g g') (items : List TcpTransmitParams) :
    Alike (g.queueing items) (g'.queueing items) :=
  ⟨h.settled, h.incarnation, by simp [h.sendQueue], h.senders, h.transmissions, h.nextAddr⟩

/-- What a reliable request adds to `send_queue`, `B` being known when there is no slot. -/
inductive Queues (B : Prop) (g : Globals) (params : TcpTransmitParams) :
    List TcpTransmitParams → Prop
  | queued {i : PortIdx} (hfind : findParamsPort g params = some i)
      (hopen : (g.ports i).state ≠ .closed) (hincarnation : (g.ports i).incarnation ≠ none)
      (hroom : g.sendQueue.length < sendQueueLength) : Queues B g params [params]
  | unfound (hfind : findParamsPort g params = none) : Queues B g params []
  | refused {i : PortIdx} (hfind : findParamsPort g params = some i)
      (hincarnation : (g.ports i).incarnation ≠ none)
      (hwhy : B ∨ ¬ g.sendQueue.length < sendQueueLength ∨ (g.ports i).state = .closed) :
      Queues B g params []

theorem TcpPort.incarnation_of_sem {p : TcpPort} {sem : CountingSemaphore maxUnacked}
    (h : p.unackedSlots = some sem) : p.incarnation = some sem.handle := by
  simp [incarnation, h]

/-- A slot that has been taken does not show in the view. -/
theorem alike_take {g : Globals} {i : PortIdx} {sem sem' : CountingSemaphore maxUnacked}
    (hsem : (g.ports i).unackedSlots = some sem) (htake : sem.take = some sem') :
    Alike g (g.setPort i { g.ports i with unackedSlots := some sem' }) := by
  refine alike_setPort rfl ?_
  rw [TcpPort.incarnation_of_sem hsem, ← (CountingSemaphore.take_some htake).1]
  rfl

theorem Taken.queues {B : Prop} {g g' : Globals} {i : PortIdx} {params : TcpTransmitParams}
    (hfind : findParamsPort g params = some i) (h : Taken g i params g') :
    ∃ items, Queues B g params items ∧ Alike (g.queueing items) g' := by
  have hself : Alike (g.queueing []) g := by
    simpa using Alike.refl g
  cases h with
  | queued hsem htake hopen hroom =>
      refine ⟨[params], .queued hfind hopen ?_ hroom, ?_⟩
      · simp [TcpPort.incarnation_of_sem hsem]
      · exact ((alike_take hsem htake).queueing _).trans
          ((alike_pushSend _ _).trans (alike_emit _ rfl))
  | full hsem _ hfull hquiet =>
      exact ⟨[], .refused hfind (by simp [TcpPort.incarnation_of_sem hsem]) (.inr (.inl hfull)),
        hself.trans hquiet.alike⟩
  | lost hsem htake hclosed hquiet =>
      exact ⟨[], .refused hfind (by simp [TcpPort.incarnation_of_sem hsem]) (.inr (.inr hclosed)),
        hself.trans ((alike_take hsem htake).trans hquiet.alike)⟩

theorem Enqueue.queues {B : Prop} {g g' : Globals} {params : TcpTransmitParams}
    (h : Enqueue B g params g') :
    ∃ items, Queues B g params items ∧ Alike (g.queueing items) g' := by
  have hself : Alike (g.queueing []) g := by
    simpa using Alike.refl g
  cases h with
  | unfound hfind hquiet => exact ⟨[], .unfound hfind, hself.trans hquiet.alike⟩
  | noSlot hfind hsem _ hb hquiet =>
      exact ⟨[], .refused hfind (by simp [TcpPort.incarnation_of_sem hsem]) (.inl hb),
        hself.trans hquiet.alike⟩
  | taken hfind h => exact h.queues hfind

/-- With room, for a port that is open, a reliable request is queued unless it waits. -/
theorem Queues.items_eq {B : Prop} {g : Globals} {params : TcpTransmitParams}
    {items : List TcpTransmitParams} {i : PortIdx} (h : Queues B g params items) (hb : ¬ B)
    (hfind : findParamsPort g params = some i) (hopen : (g.ports i).state ≠ .closed)
    (hroom : g.sendQueue.length < sendQueueLength) : items = [params] := by
  cases h with
  | queued => rfl
  | unfound hnone => simp [hfind] at hnone
  | refused hfind' _ hwhy =>
      obtain rfl := Option.some.inj (hfind.symm.trans hfind')
      simp [hb, hroom, hopen] at hwhy

theorem Queues.mem {B : Prop} {g : Globals} {params p : TcpTransmitParams}
    {items : List TcpTransmitParams} (h : Queues B g params items) (hp : p ∈ items) :
    p = params := by
  cases h with
  | queued => exact List.mem_singleton.mp hp
  | unfound | refused => cases hp

theorem Queues.length_le {B : Prop} {g : Globals} {params : TcpTransmitParams}
    {items : List TcpTransmitParams} (h : Queues B g params items) : items.length ≤ 1 := by
  cases h <;> simp

/-- A request with the key that a command names resolves to the port the command found. -/
theorem findParamsPort_of_findPort {g : Globals} {self other : BitVec 16} {addr : Ipv4Addr}
    {i : PortIdx} {params : TcpTransmitParams} (hfind : findPort g self other addr = some i)
    (hkey : params.key = (g.ports i).key) : findParamsPort g params = some i := by
  obtain ⟨hki, hfirst⟩ := findPort_eq_some_iff.mp hfind
  rw [findParamsPort_eq_some_iff, hkey, hki]
  exact ⟨rfl, hfirst⟩

/-- The FIN of a close command has the key of the port the command found. -/
theorem finRequest_key {g : Globals} {self other : BitVec 16} {addr : Ipv4Addr} {i : PortIdx}
    (hfind : findPort g self other addr = some i) :
    (finRequest (g.ports i) addr).key = (g.ports i).key := by
  have hkey := (findPort_eq_some_iff.mp hfind).1
  simp only [TcpPort.key, Prod.mk.injEq] at hkey
  simp [TcpTransmitParams.key, finRequest, TcpPort.key, hkey]

theorem findParamsPort_setState (g : Globals) (i : PortIdx) (state : TcpState)
    (params : TcpTransmitParams) :
    findParamsPort (g.setState i state) params = findParamsPort g params := by
  refine findParamsPort_congr (fun j => ?_) params
  by_cases hj : j = i
  · subst hj; simp [Globals.setState, TcpPort.key]
  · simp [Globals.setState, hj]

/-- The FIN of a close command resolves to the port it closes. -/
theorem findParamsPort_closing {g₀ g : Globals} {self other : BitVec 16} {addr : Ipv4Addr}
    {i : PortIdx} (hstage : Stage g₀ [] g) (hfind : findPort g₀ self other addr = some i) :
    findParamsPort (g.setState i .finWait1) (finRequest (g₀.ports i) addr) = some i := by
  rw [findParamsPort_setState, hstage.findParamsPort]
  exact findParamsPort_of_findPort hfind (finRequest_key hfind)

/-- Why a request that answers no change of state is queued. -/
inductive Pushes (s : System) (a : Action) : TcpTransmitParams → Prop
  | data {inCallback : Bool} {src dst : BitVec 16} {addr : Ipv4Addr} {data : Option Memory}
      {len : BitVec 16} {timeout : BitVec 32} {i : PortIdx} {block : Option Block}
      (ha : a = .tcpSend inCallback src dst addr data len timeout)
      (hfind : findPort s.g src dst addr = some i)
      (hincarnation : (s.g.ports i).incarnation ≠ none) :
      Pushes s a (tcpSendParams (s.g.ports i) block len)
  | resumed {k : Nat} {deletedTake : Bool} {t : Sender} (ha : a = .resumeSender k deletedTake)
      (ht : s.g.senders[k]? = some t) (hopen : (s.g.ports t.port).state ≠ .closed)
      (htaken : (s.g.ports t.port).incarnation = some t.handle ∨ deletedTake = true) :
      Pushes s a t.params
  | ack {i : PortIdx} {seg : Segment} (hacc : Accepts s a i seg)
      (hacks : acknowledges (s.g.ports i) seg = true) :
      Pushes s a (replyParams (s.g.ports i) seg.srcIpv4Addr ACK)

/-- A port after `tcp_reset_port`, as far as the view shows it. -/
def TcpPort.closed (p : TcpPort) : TcpPort :=
  { p with state := .closed, selfPortNum := 0, unackedSlots := none }

/-- One move of the step `a` from `s` to `s'`. -/
inductive Move (s : System) (a : Action) (s' : System) : Globals → Globals → Prop
  | stay {g : Globals} : Move s a s' g g
  /-- A task begins to wait for a slot. -/
  | wait {g : Globals} {t : Sender} (hstage : Stage s.g [] g)
      (hincarnation : (g.ports t.port).incarnation = some t.handle)
      (hkey : t.params.key = (g.ports t.port).key) (hcontrol : t.params.control = ACK + PSH) :
      Move s a s' g { g with senders := g.senders ++ [t] }
  | push {g : Globals} {params : TcpTransmitParams} (hstage : Stage s.g [] g)
      (hwhy : Pushes s a params) (hroom : g.sendQueue.length < sendQueueLength) :
      Move s a s' g (g.queueing [params])
  | drop {g : Globals} {env : TaskEnv} {params : TcpTransmitParams}
      {rest : List TcpTransmitParams} (ha : a = .tcpTask env)
      (hin : (selectInput s.g).2 = .send params) (hstage : Stage s.g [] g)
      (hqueue : g.sendQueue = params :: rest)
      (hwhy : env.send.malloc = none ∨ findParamsPort s.g params = none ∨
        ∃ i, findParamsPort s.g params = some i ∧ consumesSequence params = true ∧
          findEmptyUnacked (s.g.ports i) = none) :
      Move s a s' g { g with sendQueue := rest }
  | pass {g : Globals} {env : TaskEnv} {params : TcpTransmitParams}
      {rest : List TcpTransmitParams} {i : PortIdx} {t : Transmission} (ha : a = .tcpTask env)
      (hin : (selectInput s.g).2 = .send params) (hstage : Stage s.g [] g)
      (hqueue : g.sendQueue = params :: rest) (hfind : findParamsPort g params = some i)
      (hplain : consumesSequence params = false) (ht : Sends g i params params.seqNum t) :
      Move s a s' g (Globals.emit { g with sendQueue := rest } (.transmit t))
  | record {g : Globals} {env : TaskEnv} {params : TcpTransmitParams}
      {rest : List TcpTransmitParams} {i : PortIdx} {j : UnackedIdx} {now : BitVec 32}
      {t : Transmission} (ha : a = .tcpTask env)
      (hin : (selectInput s.g).2 = .send params) (hstage : Stage s.g [] g)
      (hqueue : g.sendQueue = params :: rest) (hfind : findParamsPort g params = some i)
      (hconsumes : consumesSequence params = true) (ht : Sends g i params (g.ports i).seqNum t) :
      Move s a s' g
        ((Globals.setPort { g with sendQueue := rest } i
          (recordUnacked (g.ports i) j params now)).emit (.transmit t))
  /-- An entry is retransmitted. -/
  | resend {g : Globals} {p q : PortIdx} {j : UnackedIdx} {params : TcpTransmitParams}
      {t : Transmission} (hin : (selectInput s.g).2 = .scan)
      (hretransmission : params.isRetransmission = true)
      (huse : ((s.g.ports p).unacked j).inUse = true)
      (hcontrol : params.control = ((s.g.ports p).unacked j).control)
      (hlen : params.dataLen = ((s.g.ports p).unacked j).dataLen)
      (ht : Sends g q params params.seqNum t) :
      Move s a s' g (g.emit (.transmit t))
  | reset {g : Globals} {i : PortIdx} (hwhy : ResetCause s a i)
      (hsettled : (g.ports i).settled = (s.g.ports i).settled)
      (hwhen : Stage s.g [] g ∨ Processes s a .scan) :
      Move s a s' g (g.setPort i (g.ports i).closed)
  | takeOver {g : Globals} {i : PortIdx} {seg : Segment} {items : List TcpTransmitParams}
      (hacc : Accepts s a i seg) (hstage : Stage s.g [] g)
      (hstate : (s.g.ports i).state = .listen) (hsyn : seg.syn = true)
      (h : Queues (s'.tcpTask ≠ .running) (g.setPort i ((g.ports i).takenOver seg))
        (replyParams ((g.ports i).takenOver seg) seg.srcIpv4Addr (SYN + ACK)) items) :
      Move s a s' g ((g.setPort i ((g.ports i).takenOver seg)).queueing items)
  | establish {g : Globals} {i : PortIdx} {seg : Segment} (hacc : Accepts s a i seg)
      (hstage : Stage s.g (acksOf (s.g.ports i) seg) g)
      (hfrom : (s.g.ports i).state = .synSent ∧ seg.syn = true ∨
        (s.g.ports i).state = .synReceived ∧ seg.header.ackNum = (s.g.ports i).seqNum)
      (hack : seg.ack = true) : Move s a s' g (g.setState i .established)
  | finReply {g : Globals} {i : PortIdx} {seg : Segment} {items : List TcpTransmitParams}
      (hacc : Accepts s a i seg) (hstage : Stage s.g (acksOf (s.g.ports i) seg) g)
      (hstate : (s.g.ports i).state = .established) (hfin : seg.fin = true)
      (h : Queues False g (replyParams (s.g.ports i) seg.srcIpv4Addr (FIN + ACK)) items) :
      Move s a s' g ((g.queueing items).setState i .lastAck)
  | finWait2 {g : Globals} {i : PortIdx} {seg : Segment} (hacc : Accepts s a i seg)
      (hstage : Stage s.g (acksOf (s.g.ports i) seg) g)
      (hstate : (s.g.ports i).state = .finWait1) (hfin : seg.fin = false)
      (hack : seg.ack = true) : Move s a s' g (g.setState i .finWait2)
  | timeWait {g : Globals} {i : PortIdx} {seg : Segment} {now : BitVec 32}
      (hacc : Accepts s a i seg) (hstage : Stage s.g (acksOf (s.g.ports i) seg) g)
      (hstate : (s.g.ports i).state = .finWait1 ∨ (s.g.ports i).state = .finWait2) :
      Move s a s' g (g.setPort i { g.ports i with state := .timeWait, enteredTimeWaitAt := now })
  | close {g : Globals} {self other : BitVec 16} {addr : Ipv4Addr} {i : PortIdx}
      {items : List TcpTransmitParams}
      (hcmd : Processes s a (.cmd (.close self other addr))) (hstage : Stage s.g [] g)
      (hfind : findPort s.g self other addr = some i)
      (h : Queues (s'.tcpTask ≠ .running) (g.setState i .finWait1)
        (finRequest (s.g.ports i) addr) items) :
      Move s a s' g ((g.setState i .finWait1).queueing items)
  | listen {g : Globals} {self : BitVec 16} {onReceive onConnect onDisconnect : Option FnPtr}
      {i : PortIdx}
      (hcmd : Processes s a (.cmd (.createAndListen self onReceive onConnect onDisconnect)))
      (hstage : Stage s.g [] g) (hunused : findUnusedPort s.g = some i) :
      Move s a s' g
        (Globals.setPort { g with nextAddr := g.nextAddr + 1 } i
          { newPort self g.nextAddr onReceive onConnect onDisconnect with state := .listen })
  | connect {g : Globals} {self other : BitVec 16} {addr : Ipv4Addr}
      {onReceive onConnect onDisconnect : Option FnPtr} {i : PortIdx} {port : TcpPort}
      {items : List TcpTransmitParams}
      (hcmd : Processes s a
        (.cmd (.createAndConnect self other addr onReceive onConnect onDisconnect)))
      (hstage : Stage s.g [] g) (hunused : findUnusedPort s.g = some i)
      (hport : port =
        connectingPort (newPort self g.nextAddr onReceive onConnect onDisconnect) other addr)
      (h : Queues (s'.tcpTask ≠ .running)
        (Globals.setPort { g with nextAddr := g.nextAddr + 1 } i port) (synRequest port addr)
        items) :
      Move s a s' g
        ((Globals.setPort { g with nextAddr := g.nextAddr + 1 } i port).queueing items)

/-- A reset leaves the view of the port closed. -/
theorem Reset.alike {g g' : Globals} {i : PortIdx} (h : Reset g i g') :
    Alike (g.setPort i (g.ports i).closed) g' := by
  obtain ⟨unacked, -, hports⟩ := h.ports
  obtain ⟨g₁, hquiet, hlog⟩ := h.log
  refine ⟨?_, ?_, h.sendQueue, h.senders, ?_, h.nextAddr.ge⟩
  · intro j
    rw [hports]
    by_cases hj : j = i
    · subst hj
      simp [TcpPort.closed, TcpPort.settled]
    · simp [hj]
  · intro j
    rw [hports]
    by_cases hj : j = i
    · subst hj
      simp [TcpPort.closed, TcpPort.incarnation]
    · simp [hj]
  · rw [hlog, transmissions, List.filterMap_append, ← transmissions, hquiet.transmissions_eq]
    simp [Event.transmission?]

@[simp] theorem ports_callOnConnect (g : Globals) (i : PortIdx) :
    (callOnConnect g i).ports = g.ports := by
  unfold callOnConnect
  split <;> rfl

theorem mem_log_callOnConnect {g : Globals} {i : PortIdx} {e : Event}
    (h : e ∈ (callOnConnect g i).log) : e ∈ g.log ∨ e = .onConnect i (g.ports i).incarnation := by
  unfold callOnConnect at h
  split at h
  · simpa using h
  · exact .inl h

theorem alike_callOnConnect (g : Globals) (i : PortIdx) : Alike g (callOnConnect g i) := by
  unfold callOnConnect
  split
  · exact alike_emit g rfl
  · exact Alike.refl g

theorem TcpPort.released_settled (p : TcpPort) (j : UnackedIdx) :
    (p.released j).settled = p.settled := rfl

/-- Every effect is a move up to what the view does not show. -/
theorem Effect.move {s s' : System} {a : Action} {g g' : Globals} (he : Effect s a s' g g') :
    ∃ g₁, Move s a s' g g₁ ∧ Alike g₁ g' := by
  cases he with
  | quiet hquiet => exact ⟨g, .stay, hquiet.alike⟩
  | @appSend _ inCallback src dst addr data len timeout i block ha hstage hfind _ h =>
      obtain ⟨items, hqueues, halike⟩ := h.queues
      cases hqueues with
      | @queued k hk _ hinc hroom =>
          -- the port of the request is the port `tcp_send` found
          have hki : k = i := by
            have hi : findParamsPort s.g (tcpSendParams (s.g.ports i) block len) = some i :=
              findParamsPort_of_findPort hfind rfl
            rw [hstage.findParamsPort] at hk
            exact Option.some.inj (hk.symm.trans hi)
          refine ⟨_, .push hstage (.data ha hfind ?_) hroom, halike⟩
          rwa [hki, hstage.incarnation i] at hinc
      | unfound _ => exact ⟨g, .stay, by simpa using halike⟩
      | refused _ _ _ => exact ⟨g, .stay, by simpa using halike⟩
  | @appWait inCallback src dst addr data len timeout i block sem ha hstage hfind _ hsem =>
      exact ⟨_, .wait (t := ⟨tcpSendParams (s.g.ports i) block len, i, sem.handle, timeout, false⟩)
        hstage (TcpPort.incarnation_of_sem hsem) (hstage.key i).symm rfl, Alike.refl _⟩
  | @resumed _ k deletedTake t ha ht hstage hincarnation h =>
      cases h with
      | queued hsem htake hopen hroom =>
          have hwhy : Pushes s a t.params :=
            .resumed ha ht (hstage.state _ ▸ hopen) (.inl (hstage.incarnation _ ▸ hincarnation))
          exact ⟨_, .push hstage hwhy hroom, ((alike_take hsem htake).queueing _).trans
            ((alike_pushSend _ _).trans (alike_emit _ rfl))⟩
      | full _ _ _ hquiet => exact ⟨g, .stay, hquiet.alike⟩
      | lost hsem htake _ hquiet => exact ⟨g, .stay, (alike_take hsem htake).trans hquiet.alike⟩
  | resumedStale ha ht hstage _ hopen hroom =>
      exact ⟨_, .push hstage (.resumed ha ht (hstage.state _ ▸ hopen) (.inr rfl)) hroom,
        (alike_pushSend _ _).trans (alike_emit _ rfl)⟩
  | strayGive _ _ _ _ _ _ =>
      exact ⟨g, .stay, alike_setPort rfl (TcpPort.given_incarnation _)⟩
  | dropped ha hin hstage hqueue hwhy => exact ⟨_, .drop ha hin hstage hqueue hwhy, Alike.refl _⟩
  | passed ha hin hstage hqueue _ hfind hplain ht =>
      exact ⟨_, .pass ha hin hstage hqueue hfind hplain ht, Alike.refl _⟩
  | recorded ha hin hstage hqueue _ hfind hconsumes _ ht =>
      exact ⟨_, .record ha hin hstage hqueue hfind hconsumes ht, Alike.refl _⟩
  | touched _ => exact ⟨g, .stay, alike_setPort rfl rfl⟩
  | retransmitted hdue _ ht =>
      obtain ⟨sentAt, hentry⟩ := hdue.entry
      have huse := hdue.due
      simp only [retransmitDue, Bool.and_eq_true] at huse
      exact ⟨_, .resend hdue.input rfl huse.1 (by simp [retransmitParams, hentry])
        (by simp [retransmitParams, hentry]) ht, Alike.refl _⟩
  | gaveUp _ _ =>
      exact ⟨g, .stay, alike_setPort (TcpPort.released_settled _ _)
        (TcpPort.released_incarnation _ _)⟩
  | reset hwhy hsettled _ hwhen h => exact ⟨_, .reset hwhy hsettled hwhen, h.alike⟩
  | released _ _ _ _ _ _ =>
      exact ⟨g, .stay, (alike_setPort (TcpPort.released_settled _ _)
        (TcpPort.released_incarnation _ _)).trans (alike_emit _ rfl)⟩
  | @acknowledged i seg hacc hstage hacks hroom =>
      exact ⟨_, .push hstage (.ack hacc hacks) hroom,
        ((alike_setPort (p := (g.ports i).advanced seg) rfl rfl).queueing _).trans
          (alike_pushSend _ _)⟩
  | ackStuck _ _ _ _ _ => exact ⟨g, .stay, alike_setPort rfl rfl⟩
  | tookOver hacc hstage hstate hsyn _ h =>
      obtain ⟨items, hqueues, halike⟩ := h.queues
      exact ⟨_, .takeOver hacc hstage hstate hsyn hqueues, halike⟩
  | established hacc hstage hfrom hack =>
      exact ⟨_, .establish hacc hstage hfrom hack, alike_callOnConnect _ _⟩
  | delivered _ _ _ _ => exact ⟨g, .stay, alike_emit _ rfl⟩
  | disconnected _ _ => exact ⟨g, .stay, alike_emit _ rfl⟩
  | @finReplied g₁ i seg hacc hstage hstate hfin h =>
      obtain ⟨items, hqueues, halike⟩ := h.queues
      refine ⟨_, .finReply hacc hstage hstate hfin hqueues, ?_⟩
      refine ⟨fun j => ?_, fun j => ?_, halike.sendQueue, halike.senders, halike.transmissions,
        halike.nextAddr⟩ <;> by_cases hj : j = i
      · subst hj
        have := congrArg (fun p : TcpPort => { p with state := .lastAck }) (halike.settled j)
        simpa [Globals.setState, TcpPort.settled] using this
      · simpa [Globals.setState, hj] using halike.settled j
      · subst hj
        simpa [Globals.setState, TcpPort.incarnation] using halike.incarnation j
      · simpa [Globals.setState, hj] using halike.incarnation j
  | finWait2 hacc hstage hstate hfin hack =>
      exact ⟨_, .finWait2 hacc hstage hstate hfin hack, Alike.refl _⟩
  | timeWait hacc hstage hstate _ => exact ⟨_, .timeWait hacc hstage hstate, Alike.refl _⟩
  | closing hcmd hstage hfind h =>
      obtain ⟨items, hqueues, halike⟩ := h.queues
      exact ⟨_, .close hcmd hstage hfind hqueues, halike⟩
  | listening hcmd hstage hunused => exact ⟨_, .listen hcmd hstage hunused, Alike.refl _⟩
  | connecting hcmd hstage hunused h =>
      obtain ⟨items, hqueues, halike⟩ := h.queues
      exact ⟨_, .connect hcmd hstage hunused rfl hqueues, halike⟩

/-- What every move of a step preserves, the step preserves. -/
theorem step_moves {s s' : System} {a : Action} {P : Globals → Prop}
    (halike : ∀ {g g'}, Alike g g' → P g → P g')
    (hmove : ∀ g g', Move s a s' g g' → P g → P g') (h : step s a = some s') (hs : P s.g) :
    P s'.g := by
  refine step_preserves (fun g g' he hg => ?_) h hs
  obtain ⟨g₁, hm, hsame⟩ := he.move
  exact halike hsame (hmove g g₁ hm hg)

/-- The rule for invariants of the view: a move may rely on the invariant, and on where
    requests come from, also in the state before its step. -/
theorem moves_invariant {P : Globals → Prop} {C : System → Action → Prop} {net : NetContext}
    (hboot : P (boot net).g) (halike : ∀ {g g'}, Alike g g' → P g → P g')
    (hmove : ∀ s a s' g g', Requests Request s.g → P s.g → C s a → Move s a s' g g' → P g → P g')
    {as : List Action} (hg : Guarded step C (boot net) as) {s : System}
    (hrun : run step (boot net) as = some s) : P s.g :=
  (run_invariant (P := fun s => Requests Request s.g ∧ P s.g)
    (fun s a s' ⟨hreq, hs⟩ hc hstep => ⟨step_requests hreq hstep,
      step_moves halike (fun g g' => hmove s a s' g g' hreq hs hc) hstep hs⟩)
    ⟨requests_boot net, hboot⟩ hg hrun).2

/-- The rule for invariants of the view that hold as long as `tcp_task` runs. -/
theorem moves_invariant_running {P : Globals → Prop} {C : System → Action → Prop}
    {net : NetContext} (hboot : P (boot net).g) (halike : ∀ {g g'}, Alike g g' → P g → P g')
    (hmove : ∀ s a s' g g', s'.tcpTask = .running → Requests Request s.g → P s.g → C s a →
      Move s a s' g g' → P g → P g')
    {as : List Action} (hg : Guarded step C (boot net) as) {s : System}
    (hrun : run step (boot net) as = some s) (hs : s.tcpTask = .running) : P s.g :=
  (run_invariant (P := fun s => Requests Request s.g ∧ (s.tcpTask = .running → P s.g))
    (fun s a s' ⟨hreq, ih⟩ hc hstep => ⟨step_requests hreq hstep, fun hs' =>
      have hP := ih (running_of_step hstep hs')
      step_moves halike (fun g g' => hmove s a s' g g' hs' hreq hP hc) hstep hP⟩)
    ⟨requests_boot net, fun _ => hboot⟩ hg hrun).2 hs

/-! ### Commands without their semaphore -/

/-- The number of the port that a command creates. -/
def TcpPortCmd.created? : TcpPortCmd → Option (BitVec 16)
  | .createAndConnect self _ _ _ _ _ => some self
  | .createAndListen self _ _ _ => some self
  | .close _ _ _ => none

/-- The semaphore of a port that the step is to create cannot be had. -/
def SemaphoreFails (s : System) (a : Action) : Prop :=
  ∃ env cmd self, a = .tcpTask env ∧ (selectInput s.g).2 = .cmd cmd ∧
    cmd.created? = some self ∧ env.semaphore = false

theorem semaphore_of_not_fails {s : System} {env : TaskEnv} {cmd : TcpPortCmd}
    {self : BitVec 16} (h : ¬ SemaphoreFails s (.tcpTask env))
    (hin : (selectInput s.g).2 = .cmd cmd) (hcreated : cmd.created? = some self) :
    env.semaphore = true := by
  by_contra hsem
  exact h ⟨env, cmd, self, rfl, hin, hcreated, by simpa using hsem⟩

/-- Without the semaphore the command is dropped. -/
theorem step_of_semaphoreFails {s s' : System} {a : Action} (h : step s a = some s')
    (hfails : SemaphoreFails s a) : s'.g = (selectInput s.g).1 := by
  obtain ⟨env, cmd, self, rfl, hin, hcreated, hsem⟩ := hfails
  cases htask : s.tcpTask with
  | blocked on => simp [step, htask] at h
  | running =>
      simp only [step, htask, tcpTaskIteration, hin, executeInput] at h
      cases cmd with
      | close => simp [TcpPortCmd.created?] at hcreated
      | createAndConnect | createAndListen =>
          simp only [executeCmd, tcpConnectPortInternal, tcpListenPortInternal,
            tcpCreatePortInternal, hsem, Bool.false_eq_true, if_false, Outcome.bind,
            afterTask, Option.some.injEq] at h
          rw [← h]

theorem alike_of_semaphoreFails {s s' : System} {a : Action} (h : step s a = some s')
    (hfails : SemaphoreFails s a) : Alike s.g s'.g := by
  rw [step_of_semaphoreFails h hfails]
  obtain ⟨env, cmd, self, rfl, hin, -⟩ := hfails
  exact (selectInput_quiet (by simp [hin])).1.alike

end NetStack.Tcp
