import NetStack.Tcp.Proofs.Payloads
import NetStack.Tcp.Proofs.Keys

/-!
# Conservation of retransmission slots

A slot of a port is in its semaphore, behind a request in `send_queue`, or behind an entry in
use. Where a request is turned into an entry and where an entry is released the three amounts
change together. They part when a request that was queued against a slot consumes no sequence
space, is dropped, or no longer resolves to the port it was queued for.
-/

namespace NetStack.Tcp
open NetStack.Lib

/-- The request was queued through `tcp_enqueue_reliable`, as all are but pure ACKs. -/
def TcpTransmitParams.reliable (params : TcpTransmitParams) : Bool := params.control != ACK

/-- The number of reliable requests in `send_queue` for port `i`. -/
def reliableFor (g : Globals) (i : PortIdx) : Nat :=
  g.sendQueue.countP fun p => p.reliable && findParamsPort g p == some i

/-- What a port holds of its slots: the free ones and those behind its entries. -/
def TcpPort.held (p : TcpPort) : Nat := p.slots + getUnackedCount p

/-- The slots of port `i`, wherever they are. -/
def balance (g : Globals) (i : PortIdx) : Nat := (g.ports i).held + reliableFor g i

/-- A reliable request with the property is queued. -/
def reliableQueued (g : Globals) (f : TcpTransmitParams → Bool) : Bool :=
  g.sendQueue.any fun p => p.reliable && f p

/-- A reliable request that is dequeued for a port is recorded; a port gets or gives up a key
    while no reliable request is queued for it; and a task that waited queues its request for
    the port whose slot it has taken. -/
def slotsKept (s : System) : Action → Bool
  | .tcpTask env =>
      match (selectInput s.g).2 with
      | .send params =>
          !params.reliable || (findParamsPort s.g params).isNone ||
            (env.send.malloc.isSome && consumesSequence params)
      | .segment seg =>
          match checkSegment s.g seg with
          | .accept i =>
              !((s.g.ports i).state == .listen && seg.syn) ||
                !reliableQueued s.g fun p => p.key == seg.key || findParamsPort s.g p == some i
          | .reset i =>
              (s.g.ports i).state != .listen ||
                !reliableQueued s.g fun p => findParamsPort s.g p == some i
          | .discard _ => true
      | .cmd (.createAndConnect self other addr _ _ _) =>
          (findUnusedPort s.g).isNone || !reliableQueued s.g fun p => p.key == (self, other, addr)
      | .cmd (.createAndListen self _ _ _) =>
          (findUnusedPort s.g).isNone ||
            !reliableQueued s.g fun p => p.key == (self, 0, ipv4AllZeroes)
      | _ => true
  | .resumeSender k deletedTake =>
      match s.g.senders[k]? with
      | some t =>
          if (s.g.ports t.port).incarnation = some t.handle then
            !(s.g.sendQueue.length < sendQueueLength) ||
              findParamsPort s.g t.params == some t.port
          else
            !deletedTake || (s.g.ports t.port).state == .closed ||
              (s.g.sendQueue.length < sendQueueLength && (findParamsPort s.g t.params).isNone)
      | none => true
  | _ => true

/-- No slot of a live port is lost or made up. -/
structure SlotsConserved (g : Globals) : Prop where
  keys : KeysOk g
  senders : ∀ t ∈ g.senders, t.params.reliable = true
  balance : ∀ i, (g.ports i).state ≠ .closed → balance g i = maxUnacked

/-- The live ports were live before, and have the slots that they had. -/
structure SameBalance (g g' : Globals) : Prop where
  live : ∀ i, (g'.ports i).state ≠ .closed → (g.ports i).state ≠ .closed
  balance : ∀ i, (g'.ports i).state ≠ .closed → balance g' i = balance g i

section Balance
variable {g g' g'' : Globals}

theorem SameBalance.trans (h : SameBalance g g') (h' : SameBalance g' g'') : SameBalance g g'' :=
  ⟨fun i hi => h.live i (h'.live i hi),
    fun i hi => (h'.balance i hi).trans (h.balance i (h'.live i hi))⟩

theorem reliableFor_congr (hkeys : ∀ i, (g'.ports i).key = (g.ports i).key)
    (hqueue : g'.sendQueue = g.sendQueue) (i : PortIdx) : reliableFor g' i = reliableFor g i := by
  simp only [reliableFor, hqueue, findParamsPort_congr hkeys]

/-- A port that keeps its key and what it holds leaves the slots as they are. -/
theorem SameBalance.setPort {k : PortIdx} {p : TcpPort}
    (hports : g'.ports = Function.update g.ports k p) (hqueue : g'.sendQueue = g.sendQueue)
    (hkey : p.key = (g.ports k).key) (hlive : p.state ≠ .closed → (g.ports k).state ≠ .closed)
    (hheld : p.held = (g.ports k).held) : SameBalance g g' := by
  have hkeys : ∀ i, (g'.ports i).key = (g.ports i).key := by
    intro i
    by_cases hi : i = k
    · subst hi
      simpa [hports] using hkey
    · simp [hports, hi]
  constructor
  · intro i hi
    by_cases hik : i = k
    · subst hik
      exact hlive (by simpa [hports] using hi)
    · simpa [hports, hik] using hi
  · intro i _
    rw [NetStack.Tcp.balance, NetStack.Tcp.balance, reliableFor_congr hkeys hqueue]
    by_cases hik : i = k
    · subst hik
      simp [hports, hheld]
    · simp [hports, hik]

theorem SameBalance.of_ports_eq (hports : g'.ports = g.ports)
    (hcount : ∀ i, reliableFor g' i = reliableFor g i) : SameBalance g g' :=
  ⟨fun i hi => by rwa [hports] at hi, fun i _ => by
    rw [NetStack.Tcp.balance, NetStack.Tcp.balance, hports, hcount]⟩

theorem Quiet.sameBalance (h : Quiet g g') : SameBalance g g' := by
  refine ⟨fun i hi => by rwa [h.state i] at hi, ?_⟩
  intro i _
  rw [NetStack.Tcp.balance, NetStack.Tcp.balance, reliableFor_congr h.key h.sendQueue]
  simp [TcpPort.held, getUnackedCount, h.slots i, h.unacked i]

/-- A request joins the queue. -/
theorem reliableFor_snoc {params : TcpTransmitParams} (hports : g'.ports = g.ports)
    (hqueue : g'.sendQueue = g.sendQueue ++ [params]) (i : PortIdx) :
    reliableFor g' i = reliableFor g i +
      if params.reliable && findParamsPort g params == some i then 1 else 0 := by
  have hkeys : ∀ i, (g'.ports i).key = (g.ports i).key := fun i => by rw [hports]
  simp only [reliableFor, hqueue, List.countP_append, List.countP_singleton,
    findParamsPort_congr hkeys]

/-- A request leaves the queue. -/
theorem reliableFor_cons {params : TcpTransmitParams} {rest : List TcpTransmitParams}
    (hqueue : g.sendQueue = params :: rest) (hkeys : ∀ i, (g'.ports i).key = (g.ports i).key)
    (hrest : g'.sendQueue = rest) (i : PortIdx) :
    reliableFor g i = reliableFor g' i +
      if params.reliable && findParamsPort g params == some i then 1 else 0 := by
  simp only [reliableFor, hqueue, hrest, List.countP_cons, findParamsPort_congr hkeys]

/-- Taking a slot for a request and queueing the request balance. -/
theorem Taken.sameBalance {k : PortIdx} {params : TcpTransmitParams}
    (hclosed : ∀ i, (g.ports i).state = .closed → (g.ports i).incarnation = none)
    (hreliable : params.reliable = true)
    (hfind : g.sendQueue.length < sendQueueLength → findParamsPort g params = some k)
    (h : Taken g k params g') : SameBalance g g' := by
  cases h with
  | @queued sem sem' hsem htake hopen hroom =>
      have hcount := (CountingSemaphore.take_some htake).2
      have hkey : ∀ i, ((g.setPort k { g.ports k with unackedSlots := some sem' }).ports i).key =
          (g.ports i).key := by
        intro i
        by_cases hi : i = k
        · subst hi
          simp [TcpPort.key]
        · simp [hi]
      constructor
      · intro i hi
        by_cases hik : i = k
        · exact hik ▸ hopen
        · simpa [hik] using hi
      · intro i _
        have hsnoc := @reliableFor_snoc (g.setPort k { g.ports k with unackedSlots := some sem' })
          (((g.setPort k { g.ports k with unackedSlots := some sem' }).pushSend params).emit
            (.queued k sem.handle params)) params rfl rfl i
        rw [reliableFor_congr hkey rfl, findParamsPort_congr hkey, hfind hroom, hreliable] at hsnoc
        rw [NetStack.Tcp.balance, NetStack.Tcp.balance, hsnoc]
        by_cases hik : i = k
        · subst hik
          simp only [Globals.ports_emit, Globals.ports_pushSend, Globals.ports_setPort,
            Function.update_self, TcpPort.held, TcpPort.slots, Option.map_some, Option.getD_some,
            hsem, getUnackedCount, beq_self_eq_true, Bool.and_self, if_true]
          omega
        · simp [hik, Ne.symm hik]
  | full _ _ _ hquiet => exact hquiet.sameBalance
  | lost hsem _ hstate _ =>
      have hnone := hclosed k hstate
      simp [TcpPort.incarnation_of_sem hsem] at hnone

theorem Enqueue.sameBalance {B : Prop} {params : TcpTransmitParams}
    (hclosed : ∀ i, (g.ports i).state = .closed → (g.ports i).incarnation = none)
    (hreliable : params.reliable = true) (h : Enqueue B g params g') : SameBalance g g' := by
  cases h with
  | unfound _ hquiet => exact hquiet.sameBalance
  | noSlot _ _ _ _ hquiet => exact hquiet.sameBalance
  | taken hfind h => exact h.sameBalance hclosed hreliable fun _ => hfind

/-- Releasing an entry gives back its slot. -/
theorem TcpPort.released_held {p : TcpPort} {j : UnackedIdx} (huse : (p.unacked j).inUse = true)
    (hsem : p.incarnation ≠ none) (hheld : p.held ≤ maxUnacked) :
    (p.released j).held = p.held := by
  cases hs : p.unackedSlots with
  | none => simp [TcpPort.incarnation, hs] at hsem
  | some sem =>
      have hcount := countIdx_update (fun j => (p.unacked j).inUse) j false
      have hupdate : getUnackedCount (p.released j) =
          countIdx (Function.update (fun j => (p.unacked j).inUse) j false) := by
        apply countIdx_congr
        intro k
        by_cases hk : k = j
        · subst hk
          simp [TcpPort.released, TcpPort.given]
        · simp [TcpPort.released, TcpPort.given, hk]
      simp only [huse, if_true, Bool.false_eq_true, if_false, add_zero] at hcount
      have hslots : p.slots = sem.count := by simp [TcpPort.slots, hs]
      have hlt : sem.count < maxUnacked := by
        simp only [TcpPort.held, getUnackedCount, hslots] at hheld
        omega
      have hgiven : (p.released j).slots = sem.count + 1 := by
        simp [TcpPort.released, TcpPort.given, TcpPort.slots, hs, CountingSemaphore.give_count _ hlt]
      rw [TcpPort.held, TcpPort.held, hupdate, hgiven, hslots]
      unfold getUnackedCount
      omega

/-- Recording a request puts its slot behind an entry. -/
theorem held_recordUnacked {p : TcpPort} {j : UnackedIdx} {params : TcpTransmitParams}
    {now : BitVec 32} (hempty : findEmptyUnacked p = some j) :
    (recordUnacked p j params now).held = p.held + 1 := by
  have hfree : (p.unacked j).inUse = false := by simpa using firstIdx_some hempty
  have hcount := countIdx_update (fun j => (p.unacked j).inUse) j true
  have hupdate : getUnackedCount (recordUnacked p j params now) =
      countIdx (Function.update (fun j => (p.unacked j).inUse) j true) := by
    apply countIdx_congr
    intro k
    by_cases hk : k = j
    · subst hk
      simp [recordUnacked]
    · simp [recordUnacked, hk]
  simp only [hfree, Bool.false_eq_true, if_false, add_zero, if_true] at hcount
  have hslots : (recordUnacked p j params now).slots = p.slots := rfl
  rw [TcpPort.held, TcpPort.held, hupdate, hcount, hslots]
  unfold getUnackedCount
  omega

theorem reliableQueued_eq_false_iff {f : TcpTransmitParams → Bool} :
    reliableQueued g f = false ↔ ∀ p ∈ g.sendQueue, p.reliable = true → f p = false := by
  simp [reliableQueued, List.any_eq_false]

/-- Port `k` gives up a key for one that no reliable request has. If no other port has the old
    key, or no reliable request resolved by it to port `k`, the other ports have the slots that
    they had. -/
theorem balance_rekey {k : PortIdx} {p : TcpPort} (hports : g'.ports = Function.update g.ports k p)
    (hqueue : g'.sendQueue = g.sendQueue)
    (hnew : ∀ q ∈ g.sendQueue, q.reliable = true → p.key ≠ q.key)
    (hold : ∀ q ∈ g.sendQueue, q.reliable = true → findParamsPort g q = some k →
      ∀ j ≠ k, (g.ports j).key ≠ q.key) :
    reliableFor g' k = 0 ∧ ∀ i ≠ k, balance g' i = balance g i := by
  have hsame : ∀ j ≠ k, (g'.ports j).key = (g.ports j).key := fun j hj => by simp [hports, hj]
  have hself : (g'.ports k).key = p.key := by simp [hports]
  constructor
  · rw [reliableFor, List.countP_eq_zero, hqueue]
    intro q hq hcount
    simp only [Bool.and_eq_true, beq_iff_eq] at hcount
    exact hnew q hq hcount.1 (hself.symm.trans (findParamsPort_key hcount.2))
  · intro i hi
    have hcount : reliableFor g' i = reliableFor g i := by
      rw [reliableFor, reliableFor, hqueue]
      apply List.countP_congr
      intro q hq
      simp only [Bool.and_eq_true, beq_iff_eq, and_congr_right_iff]
      intro hreliable
      have hnot : (g'.ports k).key ≠ q.key := hself ▸ hnew q hq hreliable
      by_cases hk : findParamsPort g q = some k
      · have hnone : findParamsPort g' q ≠ some i := fun hfind =>
          hold q hq hreliable hk i hi ((hsame i hi).symm.trans (findParamsPort_key hfind))
        simp [hnone, hk, Ne.symm hi]
      · rw [findParamsPort_of_left hsame hnot hk]
    rw [balance, balance, hcount]
    simp [hports, hi]

/-- A request that is queued, or waits for a slot, or is refused one has a port with a
    semaphore. -/
theorem Enqueue.incarnation_ne_none {B : Prop} {params : TcpTransmitParams} {i : PortIdx}
    (h : Enqueue B g params g') (hfind : findParamsPort g params = some i) :
    (g.ports i).incarnation ≠ none := by
  obtain ⟨items, hqueues, -⟩ := h.queues
  cases hqueues with
  | unfound hnone => simp [hfind] at hnone
  | queued hk _ hinc _ | refused hk hinc _ =>
      obtain rfl := Option.some.inj (hfind.symm.trans hk)
      exact hinc

end Balance

/-- What consumes sequence space is no pure ACK. -/
theorem Request.reliable_of_consumes {params : TcpTransmitParams} (h : Request params)
    (hconsumes : consumesSequence params = true) : params.reliable = true := by
  cases h with
  | ack port dst =>
      have hflag : (flagSyn ACK || flagFin ACK) = false := by decide
      simp [consumesSequence, seqIncrement, replyParams, hflag] at hconsumes
  | data port block len => exact (by decide : (ACK + PSH != ACK) = true)
  | syn port dst => exact (by decide : (SYN != ACK) = true)
  | synAck port dst => exact (by decide : (SYN + ACK != ACK) = true)
  | finAck port dst => exact (by decide : (FIN + ACK != ACK) = true)
  | fin port dst => exact (by decide : (FIN != ACK) = true)

section Effect
variable {s s' : System} {a : Action} {g g' : Globals}

theorem SameBalance.setState {k : PortIdx} {state : TcpState} (hlive : (g.ports k).state ≠ .closed) :
    SameBalance g (g.setState k state) :=
  .setPort rfl rfl rfl (fun _ => hlive) rfl

/-- The slots after an effect that moves none. -/
theorem SameBalance.conserves (hsame : SameBalance g g')
    (h : ∀ i, (g.ports i).state ≠ .closed → NetStack.Tcp.balance g i = maxUnacked) (i : PortIdx)
    (hi : (g'.ports i).state ≠ .closed) : NetStack.Tcp.balance g' i = maxUnacked :=
  (hsame.balance i hi).trans (h i (hsame.live i hi))

theorem SlotsConserved.balance_same (h : SlotsConserved g) (hsame : SameBalance g g') (i : PortIdx)
    (hi : (g'.ports i).state ≠ .closed) : NetStack.Tcp.balance g' i = maxUnacked :=
  hsame.conserves h.balance i hi

/-- A port gets or gives up a key that no reliable request has, and a live port all its slots. -/
theorem SlotsConserved.rekey (h : SlotsConserved g) {k : PortIdx} {p : TcpPort}
    (hports : g'.ports = Function.update g.ports k p) (hqueue : g'.sendQueue = g.sendQueue)
    (hnew : ∀ q ∈ g.sendQueue, q.reliable = true → p.key ≠ q.key)
    (hold : ∀ q ∈ g.sendQueue, q.reliable = true → findParamsPort g q = some k →
      ∀ j ≠ k, (g.ports j).key ≠ q.key)
    (hheld : p.state ≠ .closed → p.held = maxUnacked) (i : PortIdx)
    (hi : (g'.ports i).state ≠ .closed) : NetStack.Tcp.balance g' i = maxUnacked := by
  obtain ⟨hself, hothers⟩ := balance_rekey hports hqueue hnew hold
  by_cases hik : i = k
  · subst hik
    have hport : g'.ports i = p := by simp [hports]
    rw [NetStack.Tcp.balance, hself, hport, hheld (hport ▸ hi)]
  · rw [hothers i hik]
    apply h.balance i
    simpa [hports, hik] using hi

/-- A live port that holds entry `j` gives back one slot when it is released. -/
theorem SlotsConserved.released (h : SlotsConserved g) {k : PortIdx} {j : UnackedIdx}
    (huse : ((g.ports k).unacked j).inUse = true) (hlive : (g.ports k).state ≠ .closed) :
    SameBalance g (g.setPort k ((g.ports k).released j)) := by
  refine .setPort rfl rfl (by rfl) (fun _ => hlive) (TcpPort.released_held huse ?_ ?_)
  · exact (h.keys.incarnation k).not.mp hlive
  · have hbalance := h.balance k hlive
    rw [NetStack.Tcp.balance] at hbalance
    omega

/-- A request that is dequeued for a live port finds an entry. -/
theorem SlotsConserved.findEmptyUnacked (h : SlotsConserved g) {params : TcpTransmitParams}
    {rest : List TcpTransmitParams} {k : PortIdx} (hqueue : g.sendQueue = params :: rest)
    (hfind : findParamsPort g params = some k) (hreliable : params.reliable = true) :
    NetStack.Tcp.findEmptyUnacked (g.ports k) ≠ none := by
  intro hfull
  have hlive := h.keys.live_of_find (by simp [hqueue]) hfind
  have hcount : getUnackedCount (g.ports k) = maxUnacked := by
    apply firstIdx_not_eq_none_iff.mp
    rw [← hfull]
    exact firstIdx_congr fun j => by cases ((g.ports k).unacked j).inUse <;> rfl
  have hbalance := h.balance k hlive
  have hcons := @reliableFor_cons g { g with sendQueue := rest } params rest hqueue
    (fun _ => rfl) rfl k
  simp only [hreliable, hfind, beq_self_eq_true, Bool.and_self, if_true] at hcons
  rw [NetStack.Tcp.balance, TcpPort.held, hcount, hcons] at hbalance
  omega

/-- A reliable request that is dequeued for a port is recorded. -/
theorem slotsKept_send {env : TaskEnv} {params : TcpTransmitParams} {k : PortIdx}
    (hc : slotsKept s (.tcpTask env) = true) (hin : (selectInput s.g).2 = .send params)
    (hreliable : params.reliable = true) (hfind : findParamsPort s.g params = some k) :
    env.send.malloc ≠ none ∧ consumesSequence params = true := by
  simpa [slotsKept, hin, hreliable, hfind, Option.isSome_iff_ne_none] using hc

/-- A live port that does not listen gives up its key to none. -/
theorem SlotsConserved.closePort (h : SlotsConserved g) {k : PortIdx} {p : TcpPort}
    (hports : g'.ports = Function.update g.ports k p) (hqueue : g'.sendQueue = g.sendQueue)
    (hclosed : p.state = .closed) (hself : p.selfPortNum = 0)
    (hold : (g.ports k).state ≠ .closed ∧ (g.ports k).state ≠ .listen ∨
      ∀ q ∈ g.sendQueue, q.reliable = true → findParamsPort g q ≠ some k) (i : PortIdx)
    (hi : (g'.ports i).state ≠ .closed) : NetStack.Tcp.balance g' i = maxUnacked := by
  refine h.rekey hports hqueue (fun q hq _ hkey => ?_) (fun q hq hreliable hfind j hj hkey => ?_)
    (fun hopen => absurd hclosed hopen) i hi
  · exact h.keys.sendQueue q hq ((congrArg Prod.fst hkey).symm.trans hself)
  · rcases hold with ⟨hopen, hlisten⟩ | hnone
    · exact hj (h.keys.unique (hkey.trans (findParamsPort_key hfind).symm) hopen hlisten)
    · exact hnone q hq hreliable hfind

/-- An unused port gets a key that no reliable request has. -/
theorem SlotsConserved.openPort (h : SlotsConserved g) {k : PortIdx} {p : TcpPort}
    (hports : g'.ports = Function.update g.ports k p) (hqueue : g'.sendQueue = g.sendQueue)
    (hunused : (g.ports k).selfPortNum = 0)
    (hnew : ∀ q ∈ g.sendQueue, q.reliable = true → q.key ≠ p.key) (hheld : p.held = maxUnacked)
    (i : PortIdx) (hi : (g'.ports i).state ≠ .closed) :
    NetStack.Tcp.balance g' i = maxUnacked := by
  refine h.rekey hports hqueue (fun q hq hreliable hkey => hnew q hq hreliable hkey.symm)
    (fun q hq _ hfind => ?_) (fun _ => hheld) i hi
  exact absurd ((congrArg Prod.fst (findParamsPort_key hfind)).symm.trans hunused)
    (h.keys.sendQueue q hq)

/-- A port gets another state and stays without an incarnation if it has none. -/
theorem closed_setPort {k : PortIdx} {p : TcpPort} (hp : p.state ≠ .closed)
    (h : ∀ i, (g.ports i).state = .closed → (g.ports i).incarnation = none) (i : PortIdx)
    (hi : ((g.setPort k p).ports i).state = .closed) :
    ((g.setPort k p).ports i).incarnation = none := by
  by_cases hik : i = k
  · subst hik
    simp [hp] at hi
  · simp only [Globals.ports_setPort, Function.update_of_ne hik] at hi ⊢
    exact h i hi

/-- A new port holds all its slots. -/
theorem held_newPort (self : BitVec 16) (handle : Nat)
    (onReceive onConnect onDisconnect : Option FnPtr) :
    (newPort self handle onReceive onConnect onDisconnect).held = maxUnacked := by
  have hcount : getUnackedCount (newPort self handle onReceive onConnect onDisconnect) = 0 :=
    countIdx_eq_zero_iff.mpr fun _ => rfl
  rw [TcpPort.held, hcount]
  rfl

/-! ### The effects that the condition is about -/

/-- A task that waited queues its request for the port whose slot it has taken. -/
theorem slotsKept_resumed {k : Nat} {deletedTake : Bool} {t : Sender}
    (hc : slotsKept s (.resumeSender k deletedTake) = true) (ht : s.g.senders[k]? = some t)
    (hinc : (s.g.ports t.port).incarnation = some t.handle)
    (hroom : s.g.sendQueue.length < sendQueueLength) : findParamsPort s.g t.params = some t.port := by
  simpa [slotsKept, ht, hinc, hroom] using hc

/-- A task that takes the slot of a deleted semaphore, in a port that is in use again, queues a
    request that no port has the key of. -/
theorem slotsKept_resumedStale {k : Nat} {t : Sender}
    (hc : slotsKept s (.resumeSender k true) = true) (ht : s.g.senders[k]? = some t)
    (hinc : (s.g.ports t.port).incarnation ≠ some t.handle)
    (hopen : (s.g.ports t.port).state ≠ .closed) :
    s.g.sendQueue.length < sendQueueLength ∧ findParamsPort s.g t.params = none := by
  simpa [slotsKept, ht, hinc, hopen] using hc

/-- A request that is dropped was not reliable or is for no port. -/
theorem SlotsConserved.not_dropped (hs : SlotsConserved s.g) {env : TaskEnv}
    {params : TcpTransmitParams} (hc : slotsKept s (.tcpTask env) = true)
    (hin : (selectInput s.g).2 = .send params)
    (hwhy : env.send.malloc = none ∨ findParamsPort s.g params = none ∨
      ∃ k, findParamsPort s.g params = some k ∧ consumesSequence params = true ∧
        NetStack.Tcp.findEmptyUnacked (s.g.ports k) = none) (i : PortIdx) :
    ¬ (params.reliable = true ∧ findParamsPort s.g params = some i) := by
  rintro ⟨hreliable, hfind⟩
  obtain ⟨hmalloc, -⟩ := slotsKept_send hc hin hreliable hfind
  rcases hwhy with hno | hno | ⟨k, hk, -, hfull⟩
  · exact hmalloc hno
  · simp [hfind] at hno
  · obtain ⟨-, rest, hqueue, -⟩ := selectInput_send hin
    exact hs.findEmptyUnacked hqueue hk hreliable hfull

/-- The slot behind a request that is recorded is behind its entry. -/
theorem SlotsConserved.recorded (h : SlotsConserved g) {params : TcpTransmitParams}
    {rest : List TcpTransmitParams} {k : PortIdx} {j : UnackedIdx} {now : BitVec 32}
    (hqueue : g.sendQueue = params :: rest) (hreliable : params.reliable = true)
    (hfind : findParamsPort g params = some k)
    (hempty : NetStack.Tcp.findEmptyUnacked (g.ports k) = some j)
    (hports : g'.ports = Function.update g.ports k (recordUnacked (g.ports k) j params now))
    (hrest : g'.sendQueue = rest) (i : PortIdx) (hi : (g'.ports i).state ≠ .closed) :
    NetStack.Tcp.balance g' i = maxUnacked := by
  have hlive := h.keys.live_of_find (by simp [hqueue]) hfind
  have hkeys : ∀ i, (g'.ports i).key = (g.ports i).key := fun i => by
    by_cases hi : i = k
    · subst hi
      simp [hports, recordUnacked, TcpPort.key]
    · simp [hports, hi]
  have hcons := reliableFor_cons hqueue hkeys hrest
  by_cases hik : i = k
  · subst hik
    rw [← h.balance i hlive, NetStack.Tcp.balance, NetStack.Tcp.balance, hcons i, hports,
      Function.update_self, held_recordUnacked hempty]
    simp only [hreliable, hfind, beq_self_eq_true, Bool.and_self, if_true]
    omega
  · have hsame : g'.ports i = g.ports i := by simp [hports, hik]
    have hcount := hcons i
    simp only [hfind, Option.some.injEq, Bool.and_eq_true, beq_iff_eq, Ne.symm hik, and_false,
      if_false, add_zero] at hcount
    rw [← h.balance i (hsame ▸ hi), NetStack.Tcp.balance, NetStack.Tcp.balance, hcount, hsame]

/-- A port that is reset is a connection, or no reliable request is queued for it. -/
theorem slotsKept_reset {k : PortIdx} (hc : slotsKept s a = true) (hwhy : ResetCause s a k)
    (hsettled : (g.ports k).settled = (s.g.ports k).settled)
    (hwhen : Stage s.g [] g ∨ Processes s a .scan) :
    (g.ports k).state ≠ .closed ∧ (g.ports k).state ≠ .listen ∨
      ∀ q ∈ g.sendQueue, q.reliable = true → findParamsPort g q ≠ some k := by
  have hstate := TcpPort.state_of_settled hsettled
  cases hwhy with
  | lastAck _ _ hlast _ _ => exact .inl (by simp [hstate, hlast])
  | timeWait _ hover =>
      have hwait : (s.g.ports k).state = .timeWait := by
        simp only [timeWaitOver, Bool.and_eq_true, beq_iff_eq] at hover
        exact hover.1
      exact .inl (by simp [hstate, hwait])
  | rst seg hrst hverdict =>
      obtain ⟨⟨env, rfl⟩, hin⟩ := hrst
      by_cases hlisten : (s.g.ports k).state = .listen
      · rcases hwhen with hstage | ⟨-, hscan⟩
        · refine .inr ?_
          intro q hq hreliable
          have hnotfor : reliableQueued s.g (fun p => findParamsPort s.g p == some k) = false := by
            simpa [slotsKept, hin, hverdict, hlisten] using hc
          have hq' := reliableQueued_eq_false_iff.mp hnotfor q (hstage.sendQueue_eq ▸ hq) hreliable
          rw [hstage.findParamsPort]
          simpa using hq'
        · cases hin.symm.trans hscan
      · exact .inl (by simpa [hstate, hlisten] using (checkSegment_reset hverdict).2.1)

/-- A pure ACK joins the queue. -/
theorem sameBalance_ack {i : PortIdx} {seg : Segment} {ack : TcpTransmitParams}
    (hplain : ack.reliable = false) :
    SameBalance g ((g.setPort i ((g.ports i).advanced seg)).pushSend ack) := by
  have hadvanced : SameBalance g (g.setPort i ((g.ports i).advanced seg)) :=
    .setPort rfl rfl rfl (fun hlive => hlive) rfl
  refine hadvanced.trans (.of_ports_eq rfl fun k => ?_)
  rw [@reliableFor_snoc (g.setPort i ((g.ports i).advanced seg))
    ((g.setPort i ((g.ports i).advanced seg)).pushSend ack) ack rfl rfl k, hplain]
  simp

/-- No reliable request has the key that a SYN gives a listening port, and none resolves to the
    port. -/
theorem slotsKept_takeOver {i : PortIdx} {seg : Segment} (hc : slotsKept s a = true)
    (hacc : Accepts s a i seg) (hstage : Stage s.g [] g) (hstate : (s.g.ports i).state = .listen)
    (hsyn : seg.syn = true) (q : TcpTransmitParams) (hq : q ∈ g.sendQueue)
    (hreliable : q.reliable = true) : q.key ≠ seg.key ∧ findParamsPort g q ≠ some i := by
  obtain ⟨⟨⟨env, rfl⟩, hin⟩, hverdict⟩ := hacc
  have hnotfor : reliableQueued s.g
      (fun p => p.key == seg.key || findParamsPort s.g p == some i) = false := by
    simpa [slotsKept, hin, hverdict, hstate, hsyn] using hc
  have hq' := reliableQueued_eq_false_iff.mp hnotfor q (hstage.sendQueue_eq ▸ hq) hreliable
  rw [hstage.findParamsPort]
  simpa using hq'

/-- A listening port that no reliable request resolves to holds all its slots, and holds them as
    the connection that it becomes. -/
theorem SlotsConserved.held_takenOver (h : SlotsConserved g) {i : PortIdx} {seg : Segment}
    (hopen : (g.ports i).state ≠ .closed)
    (hnone : ∀ q ∈ g.sendQueue, q.reliable = true → findParamsPort g q ≠ some i) :
    ((g.ports i).takenOver seg).held = maxUnacked := by
  have hbalance := h.balance i hopen
  have hcount : reliableFor g i = 0 := by
    apply List.countP_eq_zero.mpr
    intro q hq hboth
    simp only [Bool.and_eq_true, beq_iff_eq] at hboth
    exact hnone q hq hboth.1 hboth.2
  rw [NetStack.Tcp.balance, hcount, add_zero] at hbalance
  exact hbalance

/-- A listening port becomes a connection, and its reply takes a slot. -/
theorem SlotsConserved.tookOver (h : SlotsConserved g) {B : Prop} {i : PortIdx} {seg : Segment}
    (hopen : (g.ports i).state ≠ .closed)
    (hself : (g.ports i).selfPortNum = seg.header.dstPort)
    (hnone : ∀ q ∈ g.sendQueue, q.reliable = true →
      q.key ≠ seg.key ∧ findParamsPort g q ≠ some i)
    (henq : Enqueue B (g.setPort i ((g.ports i).takenOver seg))
      (replyParams ((g.ports i).takenOver seg) seg.srcIpv4Addr (SYN + ACK)) g') (k : PortIdx)
    (hk : (g'.ports k).state ≠ .closed) : NetStack.Tcp.balance g' k = maxUnacked := by
  have hclosed : ∀ i, (g.ports i).state = .closed → (g.ports i).incarnation = none :=
    fun i => (h.keys.incarnation i).mp
  have hkey : ((g.ports i).takenOver seg).key = seg.key := by
    simp [TcpPort.key, TcpPort.takenOver, Segment.key, hself]
  have hheld : ((g.ports i).takenOver seg).held = maxUnacked :=
    h.held_takenOver hopen fun q hq hreliable => (hnone q hq hreliable).2
  refine (henq.sameBalance (closed_setPort (by simp [TcpPort.takenOver]) hclosed) ?_).conserves
    (h.rekey rfl rfl (fun q hq hreliable hsame => ?_) (fun q hq hreliable hfind => ?_)
      fun _ => hheld) k hk
  · exact (by decide : (SYN + ACK != ACK) = true)
  · exact (hnone q hq hreliable).1 (hsame.symm.trans hkey)
  · exact absurd hfind (hnone q hq hreliable).2

/-- No reliable request has the key of a port that a command creates. -/
theorem slotsKept_listen {self : BitVec 16} {onReceive onConnect onDisconnect : Option FnPtr}
    {i : PortIdx} (hc : slotsKept s a = true)
    (hcmd : Processes s a (.cmd (.createAndListen self onReceive onConnect onDisconnect)))
    (hstage : Stage s.g [] g) (hunused : findUnusedPort s.g = some i) (q : TcpTransmitParams)
    (hq : q ∈ g.sendQueue) (hreliable : q.reliable = true) : q.key ≠ (self, 0, ipv4AllZeroes) := by
  obtain ⟨⟨env, rfl⟩, hin⟩ := hcmd
  have hnotfor : reliableQueued s.g (fun p => p.key == (self, 0, ipv4AllZeroes)) = false := by
    simpa [slotsKept, hin, hunused] using hc
  simpa using reliableQueued_eq_false_iff.mp hnotfor q (hstage.sendQueue_eq ▸ hq) hreliable

theorem slotsKept_connect {self other : BitVec 16} {addr : Ipv4Addr}
    {onReceive onConnect onDisconnect : Option FnPtr} {i : PortIdx} (hc : slotsKept s a = true)
    (hcmd : Processes s a
      (.cmd (.createAndConnect self other addr onReceive onConnect onDisconnect)))
    (hstage : Stage s.g [] g) (hunused : findUnusedPort s.g = some i) (q : TcpTransmitParams)
    (hq : q ∈ g.sendQueue) (hreliable : q.reliable = true) : q.key ≠ (self, other, addr) := by
  obtain ⟨⟨env, rfl⟩, hin⟩ := hcmd
  have hnotfor : reliableQueued s.g (fun p => p.key == (self, other, addr)) = false := by
    simpa [slotsKept, hin, hunused] using hc
  simpa using reliableQueued_eq_false_iff.mp hnotfor q (hstage.sendQueue_eq ▸ hq) hreliable

/-- An unused port is opened with a key that no reliable request has, and its SYN takes a slot. -/
theorem SlotsConserved.connecting (h : SlotsConserved g) {B : Prop} {self other : BitVec 16}
    {addr : Ipv4Addr} {onReceive onConnect onDisconnect : Option FnPtr} {i : PortIdx}
    {port : TcpPort} (hport : port =
      connectingPort (newPort self g.nextAddr onReceive onConnect onDisconnect) other addr)
    (hunused : (g.ports i).selfPortNum = 0)
    (hnew : ∀ q ∈ g.sendQueue, q.reliable = true → q.key ≠ (self, other, addr))
    (henq : Enqueue B (Globals.setPort { g with nextAddr := g.nextAddr + 1 } i port)
      (synRequest port addr) g') (k : PortIdx) (hk : (g'.ports k).state ≠ .closed) :
    NetStack.Tcp.balance g' k = maxUnacked := by
  subst hport
  have hclosed : ∀ i, (g.ports i).state = .closed → (g.ports i).incarnation = none :=
    fun i => (h.keys.incarnation i).mp
  have hnone := closed_setPort (g := { g with nextAddr := g.nextAddr + 1 }) (k := i)
    (p := connectingPort (newPort self g.nextAddr onReceive onConnect onDisconnect) other addr)
    (by simp [connectingPort]) hclosed
  refine (henq.sameBalance hnone ?_).conserves (h.openPort rfl rfl hunused hnew ?_) k hk
  · exact (by decide : (SYN != ACK) = true)
  · exact held_newPort self g.nextAddr onReceive onConnect onDisconnect

/-- The tasks that wait after a move have reliable requests. -/
theorem SlotsConserved.senders_move (h : SlotsConserved g) (hm : Move s a s' g g') :
    ∀ t ∈ g'.senders, t.params.reliable = true := by
  cases hm with
  | @wait t _ _ _ hcontrol =>
      intro u hu
      rcases List.mem_append.mp hu with hu | hu
      · exact h.senders u hu
      · obtain rfl := List.mem_singleton.mp hu
        rw [TcpTransmitParams.reliable, hcontrol]
        decide
  | _ => exact h.senders

/-- Under the condition every effect keeps the slots of the live ports. -/
theorem SlotsConserved.balance_effect (hs : SlotsConserved s.g) (hreq : Requests Request s.g)
    (hc : slotsKept s a = true) (he : Effect s a s' g g') (h : SlotsConserved g) :
    ∀ i, (g'.ports i).state ≠ .closed → NetStack.Tcp.balance g' i = maxUnacked := by
  have hclosed : ∀ i, (g.ports i).state = .closed → (g.ports i).incarnation = none :=
    fun i => (h.keys.incarnation i).mp
  cases he with
  | quiet hquiet => exact hquiet.sameBalance.conserves h.balance
  | appSend _ _ _ _ henq =>
      refine h.balance_same (henq.sameBalance hclosed ?_)
      exact (by decide : (ACK + PSH != ACK) = true)
  | appWait => exact h.balance_same (.of_ports_eq rfl fun _ => rfl)
  | @resumed _ k deletedTake t ha ht hstage hinc htaken =>
      subst ha
      rw [hstage.incarnation] at hinc
      refine h.balance_same (htaken.sameBalance hclosed (hs.senders t (List.mem_of_getElem? ht))
        fun hroom => ?_)
      rw [hstage.sendQueue_eq] at hroom
      rw [hstage.findParamsPort]
      exact slotsKept_resumed hc ht hinc hroom
  | @resumedStale k t ha ht hstage hinc hopen hroom =>
      subst ha
      rw [hstage.incarnation] at hinc
      rw [hstage.state] at hopen
      have hfind : findParamsPort g t.params = none := by
        rw [hstage.findParamsPort]
        exact (slotsKept_resumedStale hc ht hinc hopen).2
      refine h.balance_same (.of_ports_eq rfl fun i => ?_)
      rw [@reliableFor_snoc g ((g.pushSend t.params).emit (.queued t.port t.handle t.params))
        t.params rfl rfl i]
      simp [hfind]
  | @strayGive k t ha ht hstage hinc hopen hfull =>
      subst ha
      rw [hstage.incarnation] at hinc
      rw [hstage.state] at hopen
      rw [hstage.sendQueue_eq] at hfull
      exact absurd (slotsKept_resumedStale hc ht hinc hopen).1 hfull
  | @dropped env params rest ha hin hstage hqueue hwhy =>
      subst ha
      refine h.balance_same (.of_ports_eq rfl fun i => ?_)
      have hother := hs.not_dropped hc hin hwhy i
      rw [← hstage.findParamsPort] at hother
      rw [@reliableFor_cons g { g with sendQueue := rest } params rest hqueue (fun _ => rfl) rfl i,
        if_neg (by simpa using hother), add_zero]
  | @passed env params rest i t ha hin hstage hqueue _ hfind hplain _ =>
      subst ha
      rw [hstage.findParamsPort] at hfind
      have hreliable : params.reliable = false := by
        by_contra hne
        have hsend := slotsKept_send hc hin (by simpa using hne) hfind
        simp [hplain] at hsend
      refine h.balance_same (.of_ports_eq rfl fun j => ?_)
      rw [@reliableFor_cons g (Globals.emit { g with sendQueue := rest } (.transmit t)) params rest
        hqueue (fun _ => rfl) rfl j]
      simp [hreliable]
  | @recorded env params rest k j now t ha hin hstage hqueue _ hfind hconsumes hempty _ =>
      have hreliable : params.reliable = true := by
        obtain ⟨-, rest', hqueue', -⟩ := selectInput_send hin
        exact (hreq.sendQueue params (by simp [hqueue'])).reliable_of_consumes hconsumes
      exact h.recorded hqueue hreliable hfind hempty rfl rfl
  | @touched p j env now hdue =>
      refine h.balance_same (.setPort rfl rfl rfl (fun hlive => hlive) ?_)
      refine congrArg ((g.ports p).slots + ·) (countIdx_congr fun k => ?_)
      by_cases hk : k = j
      · subst hk
        simp
      · simp [hk]
  | retransmitted => exact h.balance_same (.of_ports_eq rfl fun _ => rfl)
  | @gaveUp p j env hdue _ =>
      have hlive : (g.ports p).state ≠ .closed := by
        rw [ne_eq, h.keys.closed, TcpPort.selfPortNum_of_settled hdue.settled]
        exact hdue.live
      refine h.balance_same (h.released ?_ hlive)
      obtain ⟨sentAt, hentry⟩ := hdue.entry
      have hdue := hdue.due
      simp only [retransmitDue, Bool.and_eq_true] at hdue
      simpa [hentry] using hdue.1
  | reset hwhy hsettled _ hwhen hreset =>
      obtain ⟨unacked, -, hports⟩ := hreset.ports
      exact h.closePort hports hreset.sendQueue rfl rfl (slotsKept_reset hc hwhy hsettled hwhen)
  | @released i j seg hacc hstage _ _ huse _ =>
      have hlive : (g.ports i).state ≠ .closed := by
        rw [hstage.state i]
        exact hacc.live
      exact h.balance_same ((h.released huse hlive).trans (.of_ports_eq rfl fun _ => rfl))
  | acknowledged =>
      exact h.balance_same (sameBalance_ack (by simp [TcpTransmitParams.reliable, replyParams]))
  | ackStuck => exact h.balance_same (.setPort rfl rfl rfl (fun hlive => hlive) rfl)
  | @tookOver _ i seg hacc hstage hstate hsyn _ henq =>
      have hself : (g.ports i).selfPortNum = seg.header.dstPort :=
        (TcpPort.selfPortNum_of_settled (hstage.settled i)).trans hacc.selfPortNum
      exact h.tookOver (by simp [hstage.state i, hstate]) hself
        (slotsKept_takeOver hc hacc hstage hstate hsyn) henq
  | @established i seg hacc hstage _ _ =>
      refine h.balance_same (.setPort (ports_callOnConnect _ i) ?_ rfl (fun _ => ?_) rfl)
      · exact (alike_callOnConnect (g.setState i .established) i).sendQueue
      · rw [hstage.state i]
        exact hacc.live
  | delivered | disconnected => exact h.balance_same (.of_ports_eq rfl fun _ => rfl)
  | @finReplied g₁ i seg hacc hstage hstate _ henq =>
      refine h.balance_same (.trans (henq.sameBalance hclosed ?_) (.setState ?_))
      · exact (by decide : (FIN + ACK != ACK) = true)
      · obtain ⟨items, -, hsame⟩ := henq.queues
        rw [hsame.state i]
        simp [hstage.state i, hstate]
  | @finWait2 i seg hacc hstage hstate =>
      exact h.balance_same (.setState (by simp [hstage.state i, hstate]))
  | @timeWait i seg now hacc hstage hstate =>
      refine h.balance_same (.setPort rfl rfl rfl (fun _ => ?_) rfl)
      rw [hstage.state i]
      exact hacc.live
  | @closing _ self other addr i hcmd hstage hfind henq =>
      have hlive : (g.ports i).state ≠ .closed := by
        rw [ne_eq, h.keys.incarnation]
        have hinc := henq.incarnation_ne_none (findParamsPort_closing hstage hfind)
        simpa [Globals.setState, TcpPort.incarnation] using hinc
      refine h.balance_same (.trans (.setState hlive) (henq.sameBalance
        (closed_setPort (by simp) hclosed) ?_))
      exact (by decide : (FIN != ACK) = true)
  | @listening self onReceive onConnect onDisconnect i hcmd hstage hunused =>
      refine h.openPort rfl rfl ?_ (slotsKept_listen hc hcmd hstage hunused) ?_
      · rw [TcpPort.selfPortNum_of_settled (hstage.settled i)]
        exact findUnusedPort_some hunused
      · exact held_newPort self g.nextAddr onReceive onConnect onDisconnect
  | @connecting _ self other addr onReceive onConnect onDisconnect i hcmd hstage hunused henq =>
      refine h.connecting rfl ?_ (slotsKept_connect hc hcmd hstage hunused) henq
      rw [TcpPort.selfPortNum_of_settled (hstage.settled i)]
      exact findUnusedPort_some hunused

theorem SlotsConserved.effect (hs : SlotsConserved s.g) (hreq : Requests Request s.g)
    (hapart : keysApart s a = true) (hc : slotsKept s a = true) (he : Effect s a s' g g')
    (h : SlotsConserved g) : SlotsConserved g' := by
  obtain ⟨g₁, hm, hsame⟩ := he.move
  refine ⟨(hs.keys.move hapart hm h.keys).alike hsame, fun t ht => ?_, hs.balance_effect hreq hc he h⟩
  obtain ⟨u, hu, hparams, -⟩ := hsame.senders t ht
  exact hparams ▸ h.senders_move hm u hu

/-- Under the condition a step keeps the slots of the live ports. -/
theorem SlotsConserved.step (hs : SlotsConserved s.g) (hreq : Requests Request s.g)
    (hapart : keysApart s a = true) (hc : slotsKept s a = true) (h : step s a = some s') :
    SlotsConserved s'.g :=
  step_preserves (fun _ _ he hg => .effect hs hreq hapart hc he hg) h hs

end Effect

theorem slotsConserved_boot (net : NetContext) : SlotsConserved (boot net).g :=
  ⟨keysOk_boot net, by simp [boot], fun i hi => absurd rfl hi⟩

/-- As long as the condition holds, every slot of a live port is in its semaphore, behind an
    entry in use or behind a reliable request in `send_queue`, and a dequeued request finds an
    entry. -/
theorem slots_conserved {net : NetContext} {as : List Action} {s : System}
    (hrun : run step (boot net) as = some s)
    (hg : Guarded step (fun s a => keysApart s a = true ∧ slotsKept s a = true) (boot net) as) :
    (∀ i, (s.g.ports i).state ≠ .closed →
      (s.g.ports i).slots + getUnackedCount (s.g.ports i) + reliableFor s.g i = maxUnacked) ∧
      ∀ params i, (selectInput s.g).2 = .send params → consumesSequence params = true →
        findParamsPort s.g params = some i → findEmptyUnacked (s.g.ports i) ≠ none := by
  have hinv : Requests Request s.g ∧ SlotsConserved s.g := by
    refine run_invariant (P := fun s => Requests Request s.g ∧ SlotsConserved s.g) ?_
      ⟨requests_boot net, slotsConserved_boot net⟩ hg hrun
    exact fun s a s' ⟨hreq, hs⟩ hc hstep =>
      ⟨step_requests hreq hstep, hs.step hreq hc.1 hc.2 hstep⟩
  obtain ⟨hreq, hslots⟩ := hinv
  refine ⟨hslots.balance, ?_⟩
  intro params i hin hconsumes hfind
  obtain ⟨-, rest, hqueue, -⟩ := selectInput_send hin
  have hrequest := hreq.sendQueue params (by simp [hqueue])
  exact hslots.findEmptyUnacked hqueue hfind (hrequest.reliable_of_consumes hconsumes)

/-- The slots of an established port are conserved while its peer's data is acknowledged. -/
theorem slots_conserved_established :
    ∃ s, run step (boot hostNet) payloadRetransmitted = some s ∧
      (s.g.ports 0).state ≠ .closed ∧
      (s.g.ports 0).slots + getUnackedCount (s.g.ports 0) + reliableFor s.g 0 = maxUnacked := by
  obtain ⟨s, hs, hopen⟩ := run_any
    (show (run step (boot hostNet) payloadRetransmitted).any
      (fun s => (s.g.ports 0).state != .closed) = true by decide +kernel)
  have hlive : (s.g.ports 0).state ≠ .closed := by simpa using hopen
  exact ⟨s, hs, hlive, (slots_conserved hs (by decide +kernel)).1 0 hlive⟩

/-- After a handshake the application sends nothing, in zero bytes. -/
def emptySend : List Action :=
  handshake peerNet.ip ++ [.tcpSend false 80 5000 peerNet.ip none 0 portMaxDelay, iterates]

/-- The request has been transmitted, but its slot is nowhere. -/
theorem empty_send_leaks_slot :
    ∃ s, run step (boot hostNet) emptySend = some s ∧ (s.g.ports 0).state ≠ .closed ∧
      (s.g.ports 0).slots + getUnackedCount (s.g.ports 0) + reliableFor s.g 0 < maxUnacked := by
  obtain ⟨s, hs, hend⟩ := run_any
    (show (run step (boot hostNet) emptySend).any (fun s => (s.g.ports 0).state != .closed &&
      decide ((s.g.ports 0).slots + getUnackedCount (s.g.ports 0) + reliableFor s.g 0 <
        maxUnacked)) = true by decide +kernel)
  simp only [Bool.and_eq_true, bne_iff_ne, decide_eq_true_eq] at hend
  exact ⟨s, hs, hend⟩

end NetStack.Tcp
