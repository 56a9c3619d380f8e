import NetStack.Tcp.Proofs.Quiet

/-!
# Specifications of the operations

One specification for each function that the steps of the component are made of: what it
does to ports, queue and log, up to quiet changes. Nothing later unfolds these functions.
-/

namespace NetStack.Tcp
open NetStack.Lib

/-- A port whose slot semaphore has been given to. -/
def TcpPort.given (p : TcpPort) : TcpPort :=
  { p with unackedSlots := p.unackedSlots.map CountingSemaphore.give }

@[simp] theorem TcpPort.given_incarnation (p : TcpPort) : p.given.incarnation = p.incarnation := by
  unfold given incarnation
  cases p.unackedSlots <;> simp

theorem CountingSemaphore.give_eq_self {max : Nat} {sem : CountingSemaphore max}
    (h : ¬ sem.count < max) : sem.give = sem := by
  simp [CountingSemaphore.give, h]

theorem ports_giveSlot (g : Globals) (i : PortIdx) :
    (giveSlot g i).ports = Function.update g.ports i (g.ports i).given := by
  unfold giveSlot
  cases hsem : (g.ports i).unackedSlots with
  | none =>
      have hsame : (g.ports i).given = g.ports i := by
        cases hp : g.ports i
        simp_all [TcpPort.given]
      simp [hsame]
  | some sem =>
      by_cases hcount : sem.count < maxUnacked
      · simp [hcount, TcpPort.given, hsem]
      · have hsame : (g.ports i).given = g.ports i := by
          cases hp : g.ports i
          simp_all [TcpPort.given, CountingSemaphore.give_eq_self hcount]
        simp [hcount, hsame]

section GiveSlot
variable (g : Globals) (i : PortIdx)

@[simp] theorem selfNet_giveSlot : (giveSlot g i).selfNet = g.selfNet := by
  unfold giveSlot
  split <;> [rfl; split <;> rfl]

@[simp] theorem sendQueue_giveSlot : (giveSlot g i).sendQueue = g.sendQueue := by
  unfold giveSlot
  split <;> [rfl; split <;> rfl]

@[simp] theorem log_giveSlot : (giveSlot g i).log = g.log := by
  unfold giveSlot
  split <;> [rfl; split <;> rfl]

@[simp] theorem nextAddr_giveSlot : (giveSlot g i).nextAddr = g.nextAddr := by
  unfold giveSlot
  split <;> [rfl; split <;> rfl]

@[simp] theorem tick_giveSlot : (giveSlot g i).tick = g.tick := by
  unfold giveSlot
  split <;> [rfl; split <;> rfl]

theorem senders_giveSlot : SendersFrom g.senders (giveSlot g i).senders := by
  unfold giveSlot
  split
  · exact SendersFrom.refl _
  · split
    · exact sendersFrom_wakeSender _ _
    · exact SendersFrom.refl _

end GiveSlot

/-- What `tcp_enqueue_reliable` does once `xSemaphoreTake` has been called on port `i`. -/
inductive Taken (g : Globals) (i : PortIdx) (params : TcpTransmitParams) : Globals → Prop
  | queued {sem sem' : CountingSemaphore maxUnacked}
      (hsem : (g.ports i).unackedSlots = some sem) (htake : sem.take = some sem')
      (hopen : (g.ports i).state ≠ .closed) (hroom : g.sendQueue.length < sendQueueLength) :
      Taken g i params
        (((g.setPort i { g.ports i with unackedSlots := some sem' }).pushSend params).emit
          (.queued i sem.handle params))
  | full {sem : CountingSemaphore maxUnacked} {g' : Globals}
      (hsem : (g.ports i).unackedSlots = some sem) (hopen : (g.ports i).state ≠ .closed)
      (hfull : ¬ g.sendQueue.length < sendQueueLength) (hquiet : Quiet g g') :
      Taken g i params g'
  | lost {sem sem' : CountingSemaphore maxUnacked} {g' : Globals}
      (hsem : (g.ports i).unackedSlots = some sem) (htake : sem.take = some sem')
      (hclosed : (g.ports i).state = .closed)
      (hquiet : Quiet (g.setPort i { g.ports i with unackedSlots := some sem' }) g') :
      Taken g i params g'

theorem enqueueTaken_spec {g : Globals} {i : PortIdx} {params : TcpTransmitParams}
    {sem sem' : CountingSemaphore maxUnacked} (hsem : (g.ports i).unackedSlots = some sem)
    (htake : sem.take = some sem') :
    Taken g i params
      (enqueueTaken (g.setPort i { g.ports i with unackedSlots := some sem' }) i sem.handle
        params).1 := by
  generalize hg' : g.setPort i { g.ports i with unackedSlots := some sem' } = g'
  have hstate : (g'.ports i).state = (g.ports i).state := by simp [← hg']
  have hqueue : g'.sendQueue = g.sendQueue := by simp [← hg']
  unfold enqueueTaken
  rw [hstate, hqueue]
  by_cases hclosed : (g.ports i).state = .closed
  · rw [if_pos hclosed]
    exact .lost hsem htake hclosed (hg' ▸ quiet_free _ _)
  · rw [if_neg hclosed]
    by_cases hroom : g.sendQueue.length < sendQueueLength
    · rw [if_pos hroom, ← hg']
      exact .queued hsem htake hclosed hroom
    · rw [if_neg hroom]
      refine .full hsem hclosed hroom (Quiet.trans ?_ (quiet_free _ _))
      subst hg'
      -- the slot that was taken is given back
      have hback : (giveSlot (g.setPort i { g.ports i with unackedSlots := some sem' }) i).ports =
          g.ports := by
        rw [ports_giveSlot]
        funext j
        by_cases hj : j = i
        · subst hj
          simp [TcpPort.given, CountingSemaphore.take_give htake, ← hsem]
        · simp [hj]
      refine ⟨by simp, ⟨fun j => (g.ports j).otherWindow, hback⟩, by simp, ?_, .of_eq (by simp),
        by simp⟩
      exact senders_giveSlot _ i

/-- What `tcp_enqueue_reliable` does, `B` being known when there is no slot. -/
inductive Enqueue (B : Prop) (g : Globals) (params : TcpTransmitParams) : Globals → Prop
  | unfound {g' : Globals} (hfind : findParamsPort g params = none) (hquiet : Quiet g g') :
      Enqueue B g params g'
  | noSlot {i : PortIdx} {sem : CountingSemaphore maxUnacked} {g' : Globals}
      (hfind : findParamsPort g params = some i)
      (hsem : (g.ports i).unackedSlots = some sem) (hcount : sem.count = 0) (hb : B)
      (hquiet : Quiet g g') : Enqueue B g params g'
  | taken {i : PortIdx} {g' : Globals} (hfind : findParamsPort g params = some i)
      (h : Taken g i params g') : Enqueue B g params g'

theorem tcpEnqueueReliable_done {g g' : Globals} {params : TcpTransmitParams}
    {timeout : BitVec 32} {r : EspErr} (h : tcpEnqueueReliable g params timeout = .done g' r) :
    Enqueue (timeout = 0) g params g' := by
  unfold tcpEnqueueReliable at h
  split at h
  case h_1 hfind =>
      obtain ⟨rfl, -⟩ := Outcome.done.inj h
      exact .unfound hfind (quiet_free _ _)
  case h_2 i hfind =>
      split at h
      case h_1 => cases h
      case h_2 sem hsem =>
          split at h
          case h_1 hnone =>
              split at h
              case isTrue htimeout =>
                  obtain ⟨rfl, -⟩ := Outcome.done.inj h
                  exact .noSlot hfind hsem (CountingSemaphore.take_eq_none_iff.mp hnone) htimeout
                    (quiet_free _ _)
              case isFalse => cases h
          case h_2 sem' htake =>
              obtain ⟨rfl, -⟩ := Outcome.done.inj h
              exact .taken hfind (enqueueTaken_spec hsem htake)

/-- A call that waits has done nothing and waits for the slots of the port it resolved. -/
theorem tcpEnqueueReliable_blocked {g g' : Globals} {params : TcpTransmitParams}
    {timeout : BitVec 32} {on : Resource}
    (h : tcpEnqueueReliable g params timeout = .blocked g' on) :
    g' = g ∧ ∃ i sem, findParamsPort g params = some i ∧ (g.ports i).unackedSlots = some sem ∧
      sem.count = 0 ∧ on = .slots i := by
  unfold tcpEnqueueReliable at h
  split at h
  case h_1 => cases h
  case h_2 i hfind =>
      split at h
      case h_1 => cases h
      case h_2 sem hsem =>
          split at h
          case h_1 hnone =>
              split at h
              case isTrue => cases h
              case isFalse =>
                  obtain ⟨rfl, rfl⟩ := Outcome.blocked.inj h
                  exact ⟨rfl, i, sem, hfind, hsem, CountingSemaphore.take_eq_none_iff.mp hnone,
                    rfl⟩
          case h_2 => cases h

/-- A call that finds a port with a slot does not wait. -/
theorem tcpEnqueueReliable_returns {g : Globals} {params : TcpTransmitParams} {i : PortIdx}
    (timeout : BitVec 32) (hfind : findParamsPort g params = some i)
    (hslots : 0 < (g.ports i).slots) :
    ∃ g' r, tcpEnqueueReliable g params timeout = .done g' r := by
  have hfind' : findPort g params.srcPort params.dstPort params.dstIpv4Addr = some i := hfind
  simp only [tcpEnqueueReliable, hfind']
  cases hsem : (g.ports i).unackedSlots with
  | none => simp [TcpPort.slots, hsem] at hslots
  | some sem =>
      cases htake : sem.take with
      | none =>
          have hzero := CountingSemaphore.take_eq_none_iff.mp htake
          simp [TcpPort.slots, hsem, hzero] at hslots
      | some sem' =>
          simp only [htake]
          exact ⟨_, _, rfl⟩

theorem Enqueue.mono {B B' : Prop} (himp : B → B') {g g' : Globals}
    {params : TcpTransmitParams} (h : Enqueue B g params g') : Enqueue B' g params g' := by
  cases h with
  | unfound hfind hquiet => exact .unfound hfind hquiet
  | noSlot hfind hsem hcount hb hquiet => exact .noSlot hfind hsem hcount (himp hb) hquiet
  | taken hfind h => exact .taken hfind h

theorem Taken.incarnation {g g' : Globals} {i : PortIdx} {params : TcpTransmitParams}
    (h : Taken g i params g') (k : PortIdx) :
    (g'.ports k).incarnation = (g.ports k).incarnation := by
  cases h with
  | @queued sem sem' hsem htake =>
      by_cases hk : k = i
      · subst hk
        simp [TcpPort.incarnation, hsem, (CountingSemaphore.take_some htake).1]
      · simp [hk]
  | full _ _ _ hquiet => exact hquiet.incarnation k
  | @lost sem sem' _ hsem htake _ hquiet =>
      rw [hquiet.incarnation k]
      by_cases hk : k = i
      · subst hk
        simp [TcpPort.incarnation, hsem, (CountingSemaphore.take_some htake).1]
      · simp [hk]

/-- Queueing a request never changes the incarnation of a port. -/
theorem Enqueue.incarnation {B : Prop} {g g' : Globals} {params : TcpTransmitParams}
    (h : Enqueue B g params g') (k : PortIdx) :
    (g'.ports k).incarnation = (g.ports k).incarnation := by
  cases h with
  | unfound _ hquiet => exact hquiet.incarnation k
  | noSlot _ _ _ _ hquiet => exact hquiet.incarnation k
  | taken _ h => exact h.incarnation k

/-- What `tcp_reset_port` leaves of the port: the entries lose their payloads. -/
structure Reset (g : Globals) (i : PortIdx) (g' : Globals) : Prop where
  ports : ∃ unacked : UnackedIdx → TcpUnacked,
    (∀ j, ∃ data, unacked j = { (g.ports i).unacked j with data := data }) ∧
      g'.ports = Function.update g.ports i
        { g.ports i with
          state := .closed, selfPortNum := 0, unacked := unacked, unackedSlots := none }
  sendQueue : g'.sendQueue = g.sendQueue
  senders : SendersFrom g.senders g'.senders
  log : ∃ g₁, LogQuiet g g₁ ∧ g'.log = g₁.log ++ [.reset i (g.ports i).incarnation]
  nextAddr : g'.nextAddr = g.nextAddr
  tick : g'.tick = g.tick
  selfNet : g'.selfNet = g.selfNet

/-- `tcp_reset_port` up to its last assignments: entries of port `i` lose payloads, its
    semaphore is given to. -/
private structure Resetting (i : PortIdx) (g g' : Globals) : Prop where
  ports : ∃ (unacked : UnackedIdx → TcpUnacked) (slots : Option (CountingSemaphore maxUnacked)),
    (∀ j, ∃ data, unacked j = { (g.ports i).unacked j with data := data }) ∧
      g'.ports = Function.update g.ports i
        { g.ports i with unacked := unacked, unackedSlots := slots }
  sendQueue : g'.sendQueue = g.sendQueue
  senders : SendersFrom g.senders g'.senders
  log : LogQuiet g g'
  nextAddr : g'.nextAddr = g.nextAddr
  tick : g'.tick = g.tick
  selfNet : g'.selfNet = g.selfNet

private theorem Resetting.refl (i : PortIdx) (g : Globals) : Resetting i g g :=
  ⟨⟨(g.ports i).unacked, (g.ports i).unackedSlots, fun j => ⟨((g.ports i).unacked j).data, rfl⟩,
    by simp⟩, rfl, SendersFrom.refl _, LogQuiet.refl g, rfl, rfl, rfl⟩

private theorem Resetting.trans {i : PortIdx} {g g' g'' : Globals} (h : Resetting i g g')
    (h' : Resetting i g' g'') : Resetting i g g'' := by
  obtain ⟨unacked, slots, hunacked, hports⟩ := h.ports
  obtain ⟨unacked', slots', hunacked', hports'⟩ := h'.ports
  refine ⟨⟨unacked', slots', fun j => ?_, ?_⟩, h'.sendQueue.trans h.sendQueue,
    h.senders.trans h'.senders, h.log.trans h'.log, h'.nextAddr.trans h.nextAddr,
    h'.tick.trans h.tick, h'.selfNet.trans h.selfNet⟩
  · obtain ⟨data, hdata⟩ := hunacked j
    obtain ⟨data', hdata'⟩ := hunacked' j
    exact ⟨data', by simp [hdata', hports, hdata]⟩
  · simp [hports', hports]

private theorem resetting_freeUnackedData (i : PortIdx) (j : UnackedIdx) (g : Globals) :
    Resetting i g (freeUnackedData i j g) := by
  unfold freeUnackedData
  simp only
  split
  case h_1 block hdata =>
      split
      case isTrue =>
          refine ⟨⟨Function.update (g.ports i).unacked j
            { (g.ports i).unacked j with data := none }, (g.ports i).unackedSlots, fun k => ?_, ?_⟩,
            rfl, SendersFrom.refl _, logQuiet_free g (some block), rfl, rfl,
            rfl⟩
          · by_cases hk : k = j
            · subst hk; exact ⟨none, by simp⟩
            · exact ⟨((g.ports i).unacked k).data, by simp [hk]⟩
          · simp [Globals.setUnacked]
      case isFalse => exact Resetting.refl i g
  case h_2 => exact Resetting.refl i g

private theorem resetting_giveSlot (i : PortIdx) (g : Globals) : Resetting i g (giveSlot g i) :=
  ⟨⟨(g.ports i).unacked, (g.ports i).unackedSlots.map CountingSemaphore.give,
    fun j => ⟨((g.ports i).unacked j).data, rfl⟩, by rw [ports_giveSlot, TcpPort.given]⟩,
    by simp, senders_giveSlot g i, .of_eq (by simp), by simp, by simp, by simp⟩

private theorem resetting_giveSlots (i : PortIdx) (n : Nat) (g : Globals) :
    Resetting i g ((fun g => giveSlot g i)^[n] g) := by
  induction n generalizing g with
  | zero => exact Resetting.refl i g
  | succ n ih =>
      rw [Function.iterate_succ_apply]
      exact (resetting_giveSlot i g).trans (ih _)

theorem tcpResetPort_spec (g : Globals) (i : PortIdx) : Reset g i (tcpResetPort g i) := by
  obtain ⟨given, hgiven, hreset⟩ : ∃ given,
      Resetting i (g.setPort i { g.ports i with state := .closed, selfPortNum := 0 }) given ∧
        tcpResetPort g i = (given.setPort i { given.ports i with unackedSlots := none }).emit
          (.reset i (g.ports i).incarnation) := by
    refine ⟨_, Resetting.trans ?_ (resetting_giveSlots i _ _), rfl⟩
    exact forIdx_related (Resetting.refl i) Resetting.trans
      (fun j s => resetting_freeUnackedData i j s) _
  obtain ⟨unacked, slots, hunacked, hports⟩ := hgiven.ports
  rw [hreset]
  refine ⟨⟨unacked, fun j => ?_, ?_⟩, hgiven.sendQueue, hgiven.senders,
    ⟨given, hgiven.log, rfl⟩, hgiven.nextAddr, hgiven.tick, hgiven.selfNet⟩
  · simpa using hunacked j
  · simp [hports]

/-- The transmission of a request through port `i` with the sequence number `seqNum`. -/
structure Sends (g : Globals) (i : PortIdx) (params : TcpTransmitParams) (seqNum : BitVec 32)
    (t : Transmission) : Prop where
  slot : t.slot = i
  incarnation : t.incarnation = (g.ports i).incarnation
  params : t.params = params
  seqNum : t.seqNum = seqNum
  portSeqNum : t.portSeqNum = (g.ports i).seqNum
  ipv4 : ∃ addr heap, t.ipv4 =
    { srcIpv4Addr := g.selfNet.ip
      dstIpv4Addr := t.params.dstIpv4Addr
      protocol := tcpProtocolNumber
      data := some ⟨addr, buildDatagram heap g.selfNet t.params (g.ports i) t.seqNum⟩
      dataLen := datagramLength t.params }

/-- The datagram depends on two fields of the port only. -/
theorem buildDatagram_congr {port port' : TcpPort} (hack : port'.ackNum = port.ackNum)
    (hwindow : port'.selfWindow = port.selfWindow) (heap : Memory) (selfNet : NetContext)
    (params : TcpTransmitParams) (seqNum : BitVec 32) :
    buildDatagram heap selfNet params port' seqNum =
      buildDatagram heap selfNet params port seqNum := by
  simp only [buildDatagram, hack, hwindow]

/-- What `tcp_send_internal` does with a request. -/
inductive SendInternal (env : SendEnv) (g : Globals) (params : TcpTransmitParams) :
    Globals → EspErr → Prop
  | dropped {g' : Globals} {r : EspErr}
      (hwhy : env.malloc = none ∨ findParamsPort g params = none ∨
        ∃ i, findParamsPort g params = some i ∧ consumesSequence params = true ∧
          findEmptyUnacked (g.ports i) = none)
      (hr : r ≠ .ok) (hquiet : Quiet g g') : SendInternal env g params g' r
  | plain {i : PortIdx} {t : Transmission} {g₁ g' : Globals} {r : EspErr}
      (hmalloc : env.malloc ≠ none) (hfind : findParamsPort g params = some i)
      (hplain : consumesSequence params = false) (hr : r = .ok ↔ env.ipv4Accepts = true)
      (hquiet : Quiet g g₁) (ht : Sends g₁ i params params.seqNum t)
      (hquiet' : Quiet (g₁.emit (.transmit t)) g') : SendInternal env g params g' r
  | recorded {i : PortIdx} {j : UnackedIdx} {now : BitVec 32} {t : Transmission}
      {g₁ g' : Globals} {r : EspErr}
      (hmalloc : env.malloc ≠ none) (hfind : findParamsPort g params = some i)
      (hconsumes : consumesSequence params = true)
      (hempty : findEmptyUnacked (g.ports i) = some j)
      (hr : r = .ok ↔ env.ipv4Accepts = true) (hquiet : Quiet g g₁) (ht : Sends g₁ i params (g₁.ports i).seqNum t)
      (hquiet' : Quiet
        ((g₁.setPort i (recordUnacked (g₁.ports i) j params now)).emit (.transmit t)) g') :
      SendInternal env g params g' r

theorem sendIpv4Packet_spec (g : Globals) (t : Transmission) :
    Quiet (g.emit (.transmit t)) (sendIpv4Packet g t).1 ∧
      ((sendIpv4Packet g t).2 = .ok ↔ t.accepted = true) := by
  unfold sendIpv4Packet
  cases t.accepted with
  | true => exact ⟨Quiet.refl _, by simp⟩
  | false => exact ⟨quiet_free _ _, by simp⟩

theorem tcpSendInternal_spec (env : SendEnv) (g : Globals) (params : TcpTransmitParams) :
    SendInternal env g params (tcpSendInternal g params env).1
      (tcpSendInternal g params env).2 := by
  unfold tcpSendInternal
  cases hmalloc : env.malloc with
  | none =>
      exact .dropped (.inl hmalloc) (by simp) ((quiet_free _ _).trans (quiet_warn _ _))
  | some heap =>
      simp only
      generalize hg₁ : Globals.emit { g with nextAddr := g.nextAddr + 1 } (.malloc g.nextAddr) = g₁
      have hquiet : Quiet g g₁ := by
        subst hg₁
        exact (quiet_allocate g 1).trans (quiet_emit _ rfl)
      have hports : g₁.ports = g.ports := by subst hg₁; rfl
      have hfind₁ : findPort g₁ params.srcPort params.dstPort params.dstIpv4Addr =
          findParamsPort g params := findParamsPort_congr (by simp [hports]) params
      have hsome : env.malloc ≠ none := by simp [hmalloc]
      unfold sendAllocated
      rw [hfind₁]
      cases hfind : findParamsPort g params with
      | none =>
          exact .dropped (.inr (.inl hfind)) (by simp)
            (hquiet.trans ((quiet_free _ _).trans (quiet_warn _ _)))
      | some i =>
          simp only
          cases hconsumes : consumesSequence params with
          | false =>
              simp only [Bool.false_eq_true, if_false]
              obtain ⟨hafter, hr⟩ := sendIpv4Packet_spec g₁ _
              exact .plain hsome hfind hconsumes hr hquiet
                ⟨rfl, rfl, rfl, rfl, rfl, g.nextAddr, heap, rfl⟩ hafter
          | true =>
              simp only [if_true]
              cases hempty : findEmptyUnacked (g₁.ports i) with
              | none =>
                  exact .dropped (.inr (.inr ⟨i, hfind, hconsumes, hports ▸ hempty⟩)) (by simp)
                    (hquiet.trans ((quiet_free _ _).trans (quiet_warn _ _)))
              | some j =>
                  simp only
                  obtain ⟨hafter, hr⟩ := sendIpv4Packet_spec
                    (g₁.setPort i (recordUnacked (g₁.ports i) j params g₁.tick)) _
                  refine .recorded hsome hfind hconsumes (hports ▸ hempty) hr hquiet ?_ hafter
                  -- what the header reads of the port is not what has been recorded
                  have hsame := buildDatagram_congr
                    (show (recordUnacked (g₁.ports i) j params g₁.tick).ackNum =
                      (g₁.ports i).ackNum from rfl) rfl heap g₁.selfNet params (g₁.ports i).seqNum
                  refine ⟨rfl, by simp [recordUnacked, TcpPort.incarnation], rfl, rfl, rfl,
                    g.nextAddr, heap, ?_⟩
                  simp [hsame]

/-- A port after entry `j` has been released and its slot given back. -/
def TcpPort.released (p : TcpPort) (j : UnackedIdx) : TcpPort :=
  TcpPort.given { p with
    unacked := Function.update p.unacked j { p.unacked j with inUse := false, data := none } }

@[simp] theorem TcpPort.released_incarnation (p : TcpPort) (j : UnackedIdx) :
    (p.released j).incarnation = p.incarnation := by
  rw [released, given_incarnation]
  rfl

theorem ackUnacked_eq (i : PortIdx) (n : BitVec 32) (j : UnackedIdx) (g : Globals) :
    ackUnacked i n j g =
      if ((g.ports i).unacked j).inUse = true ∧ ((g.ports i).unacked j).seqNum ≤ n then
        releaseUnacked g i j
      else g := rfl

theorem ports_clearEntry (g : Globals) (i : PortIdx) (j : UnackedIdx) :
    (giveSlot (g.setUnacked i j { (g.ports i).unacked j with inUse := false, data := none })
      i).ports = Function.update g.ports i ((g.ports i).released j) := by
  simp [ports_giveSlot, Globals.setUnacked, TcpPort.released]

/-- Clearing an entry and giving its slot back, up to quiet changes. -/
theorem clearEntry_quiet (g : Globals) (i : PortIdx) (j : UnackedIdx) :
    Quiet (g.setPort i ((g.ports i).released j))
      (giveSlot (g.setUnacked i j { (g.ports i).unacked j with inUse := false, data := none })
        i) :=
  ⟨by simp [Globals.setUnacked],
    ⟨fun k => ((g.setPort i ((g.ports i).released j)).ports k).otherWindow, ports_clearEntry g i j⟩,
    by simp [Globals.setUnacked], senders_giveSlot _ i, .of_eq (by simp [Globals.setUnacked]),
    by simp [Globals.setUnacked]⟩

/-- Releasing an entry, up to quiet changes. -/
theorem releaseUnacked_spec (g : Globals) (i : PortIdx) (j : UnackedIdx) :
    Quiet ((g.setPort i ((g.ports i).released j)).emit
      (.acked i (g.ports i).incarnation ((g.ports i).unacked j))) (releaseUnacked g i j) := by
  have hclear := clearEntry_quiet g i j
  refine Quiet.trans ?_ (quiet_free _ ((g.ports i).unacked j).data)
  exact ⟨hclear.selfNet, hclear.ports, hclear.sendQueue, hclear.senders,
    .of_eq (by simp [Globals.setUnacked]), hclear.nextAddr⟩

end NetStack.Tcp
