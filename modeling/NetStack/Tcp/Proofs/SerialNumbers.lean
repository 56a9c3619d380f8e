import NetStack.Tcp.Proofs.Acknowledgement

/-!
# Sequence numbers under translation

Two runs of `input_tcp_internal` side by side: in the second, the numbers that this end of the
connection counts are shifted by `k` and those that the peer counts by `m`. Every part of the
receive path respects the translation, but for the tests of the ACK loop, which compare numbers
as if they did not wrap. The runs stay side by side exactly if these tests come out alike.
-/

namespace NetStack.Tcp
open NetStack.Lib NetStack.Utility

/-! ### The translation -/

section Shift
variable (k m : BitVec 32)

/-- The entry with its sequence number shifted. -/
def TcpUnacked.shift (entry : TcpUnacked) : TcpUnacked := { entry with seqNum := entry.seqNum + k }

/-- The port with its own numbers shifted by `k` and the peer's by `m`. -/
def TcpPort.shift (p : TcpPort) : TcpPort :=
  { p with
    seqNum := p.seqNum + k
    ackNum := p.ackNum + m
    unacked := fun j => (p.unacked j).shift k }

/-- The request with its sequence number shifted. -/
def TcpTransmitParams.shift (params : TcpTransmitParams) : TcpTransmitParams :=
  { params with seqNum := params.seqNum + k }

/-- A received datagram with its numbers shifted: the sequence number is the peer's, the
    acknowledgement number is ours. -/
def shiftBuffer (buffer : Memory) : Memory :=
  (buffer.store32 4 (htonl ((TcpHeader.read buffer).seqNum + m))).store32 8
    (htonl ((TcpHeader.read buffer).ackNum + k))

/-- The segment with its numbers shifted. -/
def Segment.shift (seg : Segment) : Segment := { seg with buffer := shiftBuffer k m seg.buffer }

/-- What happens in the shifted run instead of the event. -/
def Event.shift : Event → Event
  | .acked slot incarnation entry => .acked slot incarnation (entry.shift k)
  | .queued slot incarnation params => .queued slot incarnation (params.shift k)
  | .onReceive slot incarnation buffer offset dataLen =>
      .onReceive slot incarnation (shiftBuffer k m buffer) offset dataLen
  | e => e

/-- Port `j` in a run that is shifted at port `i`. -/
def shiftAt (i j : PortIdx) (p : TcpPort) : TcpPort := if j = i then p.shift k m else p

/-- The state with port `i` shifted. -/
def Globals.shift (g : Globals) (i : PortIdx) : Globals := g.setPort i ((g.ports i).shift k m)

theorem read_shiftBuffer (buffer : Memory) :
    TcpHeader.read (shiftBuffer k m buffer) =
      { TcpHeader.read buffer with
        seqNum := (TcpHeader.read buffer).seqNum + m
        ackNum := (TcpHeader.read buffer).ackNum + k } := by
  have houtside : ∀ {a : Nat}, a < 4 ∨ 12 ≤ a → shiftBuffer k m buffer a = buffer a := by
    intro a ha
    unfold shiftBuffer Memory.store32
    rw [Memory.store_outside _ _ (by simp; omega), Memory.store_outside _ _ (by simp; omega)]
  have hload16 : ∀ {a : Nat}, a + 1 < 4 ∨ 12 ≤ a →
      (shiftBuffer k m buffer).load16 a = buffer.load16 a := fun ha =>
    Memory.load16_congr (houtside (by omega)) (houtside (by omega))
  have hseq : (shiftBuffer k m buffer).load32 4 =
      htonl ((TcpHeader.read buffer).seqNum + m) := by
    unfold shiftBuffer
    rw [Memory.store32, Memory.load32_store_outside _ _ (by simp), Memory.load32_store32]
  have hack : (shiftBuffer k m buffer).load32 8 =
      htonl ((TcpHeader.read buffer).ackNum + k) := Memory.load32_store32 _ _ _
  unfold TcpHeader.read
  rw [hload16 (by omega), hload16 (by omega), hload16 (by omega), houtside (by omega),
    houtside (by omega), hseq, hack, ntohl_htonl, ntohl_htonl]
  rfl

end Shift

section Fields
variable {k m : BitVec 32} {i j : PortIdx} {p : TcpPort} {seg : Segment}

theorem header_shift : (seg.shift k m).header =
    { seg.header with seqNum := seg.header.seqNum + m, ackNum := seg.header.ackNum + k } :=
  read_shiftBuffer k m seg.buffer

@[simp] theorem seqNum_header_shift :
    (seg.shift k m).header.seqNum = seg.header.seqNum + m := by rw [header_shift]

@[simp] theorem ackNum_header_shift :
    (seg.shift k m).header.ackNum = seg.header.ackNum + k := by rw [header_shift]

@[simp] theorem srcPort_header_shift : (seg.shift k m).header.srcPort = seg.header.srcPort := by
  rw [header_shift]

@[simp] theorem dstPort_header_shift : (seg.shift k m).header.dstPort = seg.header.dstPort := by
  rw [header_shift]

@[simp] theorem control_header_shift : (seg.shift k m).header.control = seg.header.control := by
  rw [header_shift]

@[simp] theorem window_header_shift : (seg.shift k m).header.window = seg.header.window := by
  rw [header_shift]

@[simp] theorem headerLength_shift :
    (seg.shift k m).header.headerLength = seg.header.headerLength := by
  rw [header_shift]
  rfl

@[simp] theorem srcIpv4Addr_shift : (seg.shift k m).srcIpv4Addr = seg.srcIpv4Addr := rfl

@[simp] theorem buffer_shift : (seg.shift k m).buffer = shiftBuffer k m seg.buffer := rfl

@[simp] theorem fin_shift : (seg.shift k m).fin = seg.fin := by simp [Segment.fin]

@[simp] theorem syn_shift : (seg.shift k m).syn = seg.syn := by simp [Segment.syn]

@[simp] theorem rst_shift : (seg.shift k m).rst = seg.rst := by simp [Segment.rst]

@[simp] theorem ack_shift : (seg.shift k m).ack = seg.ack := by simp [Segment.ack]

@[simp] theorem dataLength_shift : (seg.shift k m).dataLength = seg.dataLength := by
  unfold Segment.dataLength
  rw [headerLength_shift]
  rfl

@[simp] theorem sequenceIncrement_shift :
    (seg.shift k m).sequenceIncrement = seg.sequenceIncrement := by
  simp [Segment.sequenceIncrement]

theorem shiftAt_self : shiftAt k m i i p = p.shift k m := if_pos rfl

/-- A field that the translation leaves alone. -/
theorem shiftAt_field {β : Type} (f : TcpPort → β) (hf : ∀ q, f (q.shift k m) = f q) :
    f (shiftAt k m i j p) = f p := by
  unfold shiftAt
  split
  · exact hf p
  · rfl

@[simp] theorem state_shiftAt : (shiftAt k m i j p).state = p.state :=
  shiftAt_field TcpPort.state fun _ => rfl

@[simp] theorem key_shiftAt : (shiftAt k m i j p).key = p.key :=
  shiftAt_field TcpPort.key fun _ => rfl

@[simp] theorem unackedSlots_shiftAt : (shiftAt k m i j p).unackedSlots = p.unackedSlots :=
  shiftAt_field TcpPort.unackedSlots fun _ => rfl

@[simp] theorem incarnation_shiftAt : (shiftAt k m i j p).incarnation = p.incarnation :=
  shiftAt_field TcpPort.incarnation fun _ => rfl

@[simp] theorem slots_shiftAt : (shiftAt k m i j p).slots = p.slots :=
  shiftAt_field TcpPort.slots fun _ => rfl

@[simp] theorem onReceive_shiftAt : (shiftAt k m i j p).onReceive = p.onReceive :=
  shiftAt_field TcpPort.onReceive fun _ => rfl

@[simp] theorem onConnect_shiftAt : (shiftAt k m i j p).onConnect = p.onConnect :=
  shiftAt_field TcpPort.onConnect fun _ => rfl

@[simp] theorem onDisconnect_shiftAt : (shiftAt k m i j p).onDisconnect = p.onDisconnect :=
  shiftAt_field TcpPort.onDisconnect fun _ => rfl

/-- An update of a port that the translation respects. -/
theorem shiftAt_update (f : TcpPort → TcpPort) (hf : ∀ q, f (q.shift k m) = (f q).shift k m) :
    f (shiftAt k m i j p) = shiftAt k m i j (f p) := by
  unfold shiftAt
  split
  · exact hf p
  · rfl

end Fields

/-! ### Two runs side by side -/

/-- `h` is `g` shifted at port `i`, as far as the two have come since `g₀`. -/
structure Shifted (k m : BitVec 32) (i : PortIdx) (g₀ g h : Globals) : Prop where
  ports : ∀ j, h.ports j = shiftAt k m i j (g.ports j)
  sendQueue : ∃ new, g.sendQueue = g₀.sendQueue ++ new ∧
    h.sendQueue = g₀.sendQueue ++ new.map (·.shift k)
  log : ∃ new, g.log = g₀.log ++ new ∧ h.log = g₀.log ++ new.map (·.shift k m)
  queueSet : h.queueSet = g.queueSet
  senders : h.senders = g.senders
  tick : h.tick = g.tick
  others : (h.selfNet, h.inputQueue, h.portCmdQueue, h.nextAddr) =
    (g.selfNet, g.inputQueue, g.portCmdQueue, g.nextAddr)

/-- The two calls end alike, in states that are shifts of each other. -/
inductive Outcome.Shifted (k m : BitVec 32) (i : PortIdx) (g₀ : Globals) {α : Type} :
    Outcome α → Outcome α → Prop
  | done {g h : Globals} {a : α} (hstates : Tcp.Shifted k m i g₀ g h) :
      Outcome.Shifted k m i g₀ (.done g a) (.done h a)
  | blocked {g h : Globals} {on : Resource} (hstates : Tcp.Shifted k m i g₀ g h) :
      Outcome.Shifted k m i g₀ (.blocked g on) (.blocked h on)
  | undefined : Outcome.Shifted k m i g₀ .undefined .undefined

section Runs
variable {k m : BitVec 32} {i : PortIdx} {g₀ g h : Globals} {seg : Segment}
  {params : TcpTransmitParams} {α β : Type}

theorem Shifted.start (k m : BitVec 32) (i : PortIdx) (g : Globals) :
    Shifted k m i g g (g.shift k m i) := by
  refine ⟨fun j => ?_, ⟨[], by simp, by simp [Globals.shift]⟩, ⟨[], by simp, by simp [Globals.shift]⟩,
    rfl, rfl, rfl, rfl⟩
  by_cases hj : j = i
  · subst hj
    simp [Globals.shift, shiftAt_self]
  · simp [Globals.shift, shiftAt, hj]

theorem Shifted.setPort (hs : Shifted k m i g₀ g h) (j : PortIdx) {p p' : TcpPort}
    (hp : p' = shiftAt k m i j p) : Shifted k m i g₀ (g.setPort j p) (h.setPort j p') := by
  refine ⟨fun l => ?_, hs.sendQueue, hs.log, hs.queueSet, hs.senders, hs.tick, hs.others⟩
  by_cases hl : l = j
  · subst hl
    simpa using hp
  · simpa [hl] using hs.ports l

/-- An update of port `j` that the translation respects. -/
theorem Shifted.update (hs : Shifted k m i g₀ g h) (j : PortIdx) (f : TcpPort → TcpPort)
    (hf : ∀ q, f (q.shift k m) = (f q).shift k m) :
    Shifted k m i g₀ (g.setPort j (f (g.ports j))) (h.setPort j (f (h.ports j))) :=
  hs.setPort j (by rw [hs.ports j, shiftAt_update f hf])

theorem Shifted.setState (hs : Shifted k m i g₀ g h) (j : PortIdx) (state : TcpState) :
    Shifted k m i g₀ (g.setState j state) (h.setState j state) :=
  hs.update j (fun p => { p with state := state }) fun _ => rfl

theorem Shifted.emit (hs : Shifted k m i g₀ g h) (e : Event) :
    Shifted k m i g₀ (g.emit e) (h.emit (e.shift k m)) := by
  obtain ⟨new, hg, hh⟩ := hs.log
  refine ⟨hs.ports, hs.sendQueue, ⟨new ++ [e], ?_, ?_⟩, hs.queueSet, hs.senders, hs.tick,
    hs.others⟩
  · simp [hg]
  · simp [hh]

theorem Shifted.warn (hs : Shifted k m i g₀ g h) (w : Warning) :
    Shifted k m i g₀ (g.warn w) (h.warn w) := hs.emit (.warn w)

theorem Shifted.free (hs : Shifted k m i g₀ g h) (data : Option Block) :
    Shifted k m i g₀ (g.free data) (h.free data) := by
  cases data with
  | none => exact hs
  | some block => exact hs.emit (.free block.addr)

theorem Shifted.length_sendQueue (hs : Shifted k m i g₀ g h) :
    h.sendQueue.length = g.sendQueue.length := by
  obtain ⟨new, hg, hh⟩ := hs.sendQueue
  simp [hg, hh]

theorem Shifted.pushSend (hs : Shifted k m i g₀ g h) (params : TcpTransmitParams) :
    Shifted k m i g₀ (g.pushSend params) (h.pushSend (params.shift k)) := by
  obtain ⟨new, hg, hh⟩ := hs.sendQueue
  refine ⟨hs.ports, ⟨new ++ [params], ?_, ?_⟩, hs.log, ?_, hs.senders, hs.tick, hs.others⟩
  · simp [hg]
  · simp [hh]
  · simp [Globals.pushSend, hs.queueSet]

theorem Shifted.setSenders (hs : Shifted k m i g₀ g h) (senders : List Sender) :
    Shifted k m i g₀ { g with senders := senders } { h with senders := senders } :=
  ⟨hs.ports, hs.sendQueue, hs.log, hs.queueSet, rfl, hs.tick, hs.others⟩

theorem Shifted.giveSlot (hs : Shifted k m i g₀ g h) (j : PortIdx) :
    Shifted k m i g₀ (giveSlot g j) (giveSlot h j) := by
  unfold Tcp.giveSlot
  rw [show (h.ports j).unackedSlots = (g.ports j).unackedSlots by simp [hs.ports]]
  cases (g.ports j).unackedSlots with
  | none => exact hs
  | some sem =>
      dsimp only
      split
      · rw [hs.senders]
        exact (hs.update j (fun p => { p with unackedSlots := some sem.give })
          fun _ => rfl).setSenders _
      · exact hs

theorem Shifted.findPort (hs : Shifted k m i g₀ g h) (self other : BitVec 16) (addr : Ipv4Addr) :
    findPort h self other addr = findPort g self other addr :=
  findPort_congr (fun j => by simp [hs.ports]) self other addr

/-- `tcp_enqueue_reliable` for a request and its shift. -/
theorem Shifted.tcpEnqueueReliable (hs : Shifted k m i g₀ g h) (params : TcpTransmitParams)
    (timeout : BitVec 32) :
    (tcpEnqueueReliable g params timeout).Shifted k m i g₀
      (tcpEnqueueReliable h (params.shift k) timeout) := by
  have hdata : (params.shift k).data = params.data := rfl
  unfold Tcp.tcpEnqueueReliable
  rw [hs.findPort, show (params.shift k).srcPort = params.srcPort from rfl,
    show (params.shift k).dstPort = params.dstPort from rfl,
    show (params.shift k).dstIpv4Addr = params.dstIpv4Addr from rfl, hdata]
  cases Tcp.findPort g params.srcPort params.dstPort params.dstIpv4Addr with
  | none => exact .done (hs.free _)
  | some j =>
      dsimp only
      rw [show (h.ports j).unackedSlots = (g.ports j).unackedSlots by simp [hs.ports]]
      cases (g.ports j).unackedSlots with
      | none => exact .undefined
      | some sem =>
          dsimp only
          cases sem.take with
          | none =>
              dsimp only
              split
              · exact .done (hs.free _)
              · exact .blocked hs
          | some sem' =>
              dsimp only
              have htaken := hs.update j (fun p => { p with unackedSlots := some sem' })
                fun _ => rfl
              generalize g.setPort j { g.ports j with unackedSlots := some sem' } = g₁ at htaken ⊢
              generalize h.setPort j { h.ports j with unackedSlots := some sem' } = h₁ at htaken ⊢
              unfold enqueueTaken
              rw [show (h₁.ports j).state = (g₁.ports j).state by simp [htaken.ports],
                htaken.length_sendQueue, hdata]
              split_ifs
              · exact .done (htaken.free _)
              · exact .done ((htaken.pushSend params).emit (.queued j sem.handle params))
              · exact .done ((htaken.giveSlot j).free _)

/-- Both calls are defined, or none of them is. -/
theorem Outcome.Shifted.final {o o' : Outcome α} (ho : o.Shifted k m i g₀ o')
    (hg : o.final? = some g) : ∃ h, o'.final? = some h ∧ Tcp.Shifted k m i g₀ g h := by
  cases ho with
  | done hstates => exact ⟨_, rfl, Option.some.inj hg ▸ hstates⟩
  | blocked hstates => exact ⟨_, rfl, Option.some.inj hg ▸ hstates⟩
  | undefined => cases hg

/-- The shifted run has the same entries in use. -/
theorem Shifted.inUse (hs : Shifted k m i g₀ g h) (j : UnackedIdx) :
    ((h.ports i).unacked j).inUse = ((g.ports i).unacked j).inUse := by
  rw [hs.ports i, shiftAt_self]
  rfl

theorem Outcome.Shifted.bind {o o' : Outcome α} {f f' : Globals → α → Outcome β}
    (ho : o.Shifted k m i g₀ o')
    (hf : ∀ g h a, Tcp.Shifted k m i g₀ g h → (f g a).Shifted k m i g₀ (f' h a)) :
    (o.bind f).Shifted k m i g₀ (o'.bind f') := by
  cases ho with
  | done hstates => exact hf _ _ _ hstates
  | blocked hstates => exact .blocked hstates
  | undefined => exact .undefined

/-! ### The receive path -/

theorem Shifted.callOnConnect (hs : Shifted k m i g₀ g h) (j : PortIdx) :
    Shifted k m i g₀ (callOnConnect g j) (callOnConnect h j) := by
  unfold Tcp.callOnConnect
  rw [show (h.ports j).onConnect = (g.ports j).onConnect by simp [hs.ports],
    show (h.ports j).incarnation = (g.ports j).incarnation by simp [hs.ports]]
  split
  · exact hs.emit (.onConnect j _)
  · exact hs

theorem Shifted.callOnDisconnect (hs : Shifted k m i g₀ g h) (j : PortIdx) (n : Option Nat) :
    (callOnDisconnect g j n).Shifted k m i g₀ (callOnDisconnect h j n) := by
  unfold Tcp.callOnDisconnect
  rw [show (h.ports j).onDisconnect = (g.ports j).onDisconnect by simp [hs.ports]]
  split
  · exact .done (hs.emit (.onDisconnect j n))
  · exact .undefined

theorem Shifted.freeUnackedData (hs : Shifted k m i g₀ g h) (j : PortIdx) (l : UnackedIdx) :
    Shifted k m i g₀ (freeUnackedData j l g) (freeUnackedData j l h) := by
  have hentry : ((h.ports j).unacked l).data = ((g.ports j).unacked l).data ∧
      ((h.ports j).unacked l).inUse = ((g.ports j).unacked l).inUse := by
    rw [hs.ports j]
    exact ⟨shiftAt_field (fun p => (p.unacked l).data) fun _ => rfl,
      shiftAt_field (fun p => (p.unacked l).inUse) fun _ => rfl⟩
  unfold Tcp.freeUnackedData
  dsimp only
  rw [hentry.1]
  split
  case h_1 block _ =>
      by_cases huse : ((g.ports j).unacked l).inUse = true
      · rw [if_pos huse, if_pos (hentry.2.trans huse)]
        have hupdate := (hs.free (some block)).update j
          (fun p => { p with
            unacked := Function.update p.unacked l { p.unacked l with data := none } }) ?_
        · simpa [Globals.setUnacked] using hupdate
        · intro p
          simp only [TcpPort.shift, TcpPort.mk.injEq, true_and, and_true]
          funext n
          by_cases hn : n = l
          · subst hn
            simp [TcpUnacked.shift]
          · simp [hn]
      · rw [if_neg huse, if_neg fun h => huse (hentry.2.symm.trans h)]
        exact hs
  case h_2 => exact hs

theorem Shifted.tcpResetPort (hs : Shifted k m i g₀ g h) (j : PortIdx) :
    Shifted k m i g₀ (tcpResetPort g j) (tcpResetPort h j) := by
  have hgives : ∀ (n : Nat) {g h : Globals}, Shifted k m i g₀ g h →
      Shifted k m i g₀ ((fun g => Tcp.giveSlot g j)^[n] g) ((fun g => Tcp.giveSlot g j)^[n] h) := by
    intro n
    induction n with
    | zero => exact fun hs => hs
    | succ n ih =>
        intro g h hs
        rw [Function.iterate_succ_apply, Function.iterate_succ_apply]
        exact ih (hs.giveSlot j)
  have hclosed := hs.update j (fun p => { p with state := .closed, selfPortNum := 0 })
    fun _ => rfl
  have hfreed := forIdx_simulates (R := Shifted k m i g₀)
    (fun l g h hs => Shifted.freeUnackedData hs j l) hclosed
  unfold Tcp.tcpResetPort
  dsimp only
  rw [show (h.ports j).incarnation = (g.ports j).incarnation by simp [hs.ports]]
  generalize forIdx (Tcp.freeUnackedData j) (g.setPort j _) = g₁ at hfreed ⊢
  generalize forIdx (Tcp.freeUnackedData j) (h.setPort j _) = h₁ at hfreed ⊢
  rw [show (h₁.ports j).slots = (g₁.ports j).slots by simp [hfreed.ports]]
  exact ((hgives _ hfreed).update j (fun p => { p with unackedSlots := none }) fun _ => rfl).emit
    (.reset j _)

theorem Shifted.enterTimeWait (hs : Shifted k m i g₀ g h) (j : PortIdx) :
    (enterTimeWait g j).Shifted k m i g₀ (enterTimeWait h j) := by
  unfold Tcp.enterTimeWait
  dsimp only
  rw [hs.tick, show (h.ports j).incarnation = (g.ports j).incarnation by simp [hs.ports]]
  have hwaiting := hs.update j
    (fun p => { p with state := .timeWait, enteredTimeWaitAt := g.tick }) fun _ => rfl
  exact hwaiting.callOnDisconnect j _

theorem Shifted.deliverData (hs : Shifted k m i g₀ g h) (seg : Segment) :
    Shifted k m i g₀ (deliverData g i seg) (deliverData h i (seg.shift k m)) := by
  unfold Tcp.deliverData
  rw [dataLength_shift, headerLength_shift, buffer_shift,
    show (h.ports i).onReceive = (g.ports i).onReceive by simp [hs.ports],
    show (h.ports i).incarnation = (g.ports i).incarnation by simp [hs.ports]]
  split
  · split
    · exact hs.emit (.onReceive i _ _ _ _)
    · exact hs
  · exact hs

/-- The reply of the shifted port is the shifted reply. -/
theorem Shifted.replyParams (hs : Shifted k m i g₀ g h) (dst : Ipv4Addr) (control : BitVec 8) :
    replyParams (h.ports i) dst control = (replyParams (g.ports i) dst control).shift k := by
  rw [hs.ports i, shiftAt_self]
  rfl

theorem Shifted.inputState (hs : Shifted k m i g₀ g h) (seg : Segment) :
    (inputState g i seg).Shifted k m i g₀ (inputState h i (seg.shift k m)) := by
  have hignore : ∀ {o o' : Outcome EspErr}, o.Shifted k m i g₀ o' →
      (o.bind fun g _ => Outcome.done g ()).Shifted k m i g₀
        (o'.bind fun g _ => Outcome.done g ()) :=
    fun ho => ho.bind fun _ _ _ hstates => .done hstates
  have hseqNum : (h.ports i).seqNum = (g.ports i).seqNum + k := by
    rw [hs.ports i, shiftAt_self]
    rfl
  have hconnect := (hs.setState i .established).callOnConnect i
  unfold Tcp.inputState
  rw [show (h.ports i).state = (g.ports i).state by simp [hs.ports]]
  cases (g.ports i).state with
  | listen =>
      dsimp only
      unfold inputListen
      rw [syn_shift]
      split
      · exact .done (hs.warn _)
      · have htaken : Shifted k m i g₀ (g.setPort i ((g.ports i).takenOver seg))
            (h.setPort i ((h.ports i).takenOver (seg.shift k m))) := by
          apply hs.setPort i
          rw [hs.ports i, shiftAt_self, shiftAt_self]
          simp only [TcpPort.takenOver, TcpPort.shift, seqNum_header_shift, srcPort_header_shift,
            srcIpv4Addr_shift, TcpPort.mk.injEq, true_and, and_true]
          rw [BitVec.add_assoc, BitVec.add_comm m, ← BitVec.add_assoc]
        have hreply := htaken.tcpEnqueueReliable
          (Tcp.replyParams ((g.setPort i ((g.ports i).takenOver seg)).ports i) seg.srcIpv4Addr
            (SYN + ACK)) portMaxDelay
        rw [← htaken.replyParams] at hreply
        exact hignore hreply
  | synSent =>
      dsimp only
      unfold inputSynSent
      rw [syn_shift, ack_shift]
      split_ifs
      · exact .done (hs.warn _)
      · exact .done (hs.warn _)
      · exact .done hconnect
  | synReceived =>
      dsimp only
      unfold inputSynReceived
      simp only [ack_shift, ackNum_header_shift, hseqNum, ne_eq, BitVec.add_left_inj]
      split_ifs
      · exact .done (hs.warn _)
      · exact .done hconnect
      · exact .done (hs.warn _)
  | established =>
      dsimp only
      unfold inputEstablished
      rw [fin_shift, srcIpv4Addr_shift, hs.replyParams]
      split
      · apply (hs.tcpEnqueueReliable _ _).bind
        intro g h _ hstates
        exact .done ((hstates.setState i .lastAck).deliverData seg)
      · exact .done (hs.deliverData seg)
  | lastAck =>
      dsimp only
      unfold inputLastAck
      simp only [ack_shift, ackNum_header_shift, hseqNum, ne_eq, BitVec.add_left_inj]
      rw [show (h.ports i).incarnation = (g.ports i).incarnation by simp [hs.ports]]
      split_ifs
      · exact .done (hs.warn _)
      · exact (hs.tcpResetPort i).callOnDisconnect i _
      · exact .done (hs.warn _)
  | finWait1 =>
      dsimp only
      unfold inputFinWait1
      rw [fin_shift, ack_shift]
      split_ifs
      · exact hs.enterTimeWait i
      · exact .done hs
      · exact .done (hs.setState i .finWait2)
  | finWait2 =>
      dsimp only
      unfold inputFinWait2
      rw [fin_shift]
      split_ifs
      · exact .done hs
      · exact hs.enterTimeWait i
  | closed => exact .done hs
  | closeWait => exact .done hs
  | timeWait => exact .done hs

theorem Shifted.acknowledgeData (hs : Shifted k m i g₀ g h) (seg : Segment) :
    (acknowledgeData g i seg).Shifted k m i g₀ (acknowledgeData h i (seg.shift k m)) := by
  have hacks : acknowledges (h.ports i) (seg.shift k m) = acknowledges (g.ports i) seg := by
    unfold acknowledges
    rw [sequenceIncrement_shift,
      show (h.ports i).state = (g.ports i).state by simp [hs.ports]]
  have hadvanced : Shifted k m i g₀ (g.setPort i ((g.ports i).advanced seg))
      (h.setPort i ((h.ports i).advanced (seg.shift k m))) := by
    apply hs.setPort i
    rw [hs.ports i, shiftAt_self, shiftAt_self]
    simp only [TcpPort.advanced, TcpPort.shift, seqNum_header_shift, sequenceIncrement_shift,
      TcpPort.mk.injEq, true_and, and_true]
    rw [BitVec.add_assoc, BitVec.add_comm m, ← BitVec.add_assoc]
  rw [acknowledgeData_eq, acknowledgeData_eq, hacks, hs.length_sendQueue, srcIpv4Addr_shift,
    hs.replyParams]
  split_ifs
  · exact .done (hadvanced.pushSend _)
  · exact .blocked hadvanced
  · exact .done hs

/-- The ACK loop, when its tests come out alike. -/
theorem Shifted.processAck (hs : Shifted k m i g₀ g h) (n : BitVec 32)
    (hsame : ∀ j, ((g.ports i).shift k m).releases (n + k) j = (g.ports i).releases n j) :
    Shifted k m i g₀ (processAck g i n) (processAck h i (n + k)) := by
  have hrelease : ∀ j (g h : Globals), Shifted k m i g₀ g h →
      Shifted k m i g₀ (releaseUnacked g i j) (releaseUnacked h i j) := by
    intro j g h hs
    have hentry : (h.ports i).unacked j = ((g.ports i).unacked j).shift k := by
      rw [hs.ports i, shiftAt_self]
      rfl
    have hcleared : Shifted k m i g₀
        (g.setUnacked i j { (g.ports i).unacked j with inUse := false, data := none })
        (h.setUnacked i j { (h.ports i).unacked j with inUse := false, data := none }) := by
      refine hs.update i (fun p => { p with
        unacked := Function.update p.unacked j
          { p.unacked j with inUse := false, data := none } }) fun p => ?_
      simp only [TcpPort.shift, TcpPort.mk.injEq, true_and, and_true]
      funext l
      by_cases hl : l = j
      · subst hl
        simp [TcpUnacked.shift]
      · simp [hl]
    have hemit := (hcleared.giveSlot i).emit
      (.acked i (g.ports i).incarnation ((g.ports i).unacked j))
    unfold releaseUnacked
    dsimp only
    rw [show (h.ports i).incarnation = (g.ports i).incarnation by simp [hs.ports]]
    rw [hentry] at hemit ⊢
    exact hemit.free _
  rw [processAck_eq, processAck_eq]
  refine forIdx_simulates (R := Shifted k m i g₀) (fun j g' h' hs' => ?_) hs
  rw [hs.ports i, shiftAt_self, hsame j]
  split
  · exact hrelease j g' h' hs'
  · exact hs'

end Runs

/-! ### The whole call -/

/-- The ACK loop of port `i` releases the same entries after the translation by `k`. -/
def SameReleases (k : BitVec 32) (p : TcpPort) (ackNum : BitVec 32) : Prop :=
  ∀ j, (p.unacked j).inUse = true →
    (ackNum + k ≤ p.seqNum + k ∧ (p.unacked j).seqNum + k ≤ ackNum + k ↔
      ackNum ≤ p.seqNum ∧ (p.unacked j).seqNum ≤ ackNum)

section Call
variable {k m : BitVec 32} {i : PortIdx} {g g' : Globals} {seg : Segment}

theorem sameReleases_iff {p : TcpPort} {n : BitVec 32} :
    SameReleases k p n ↔ ∀ j, (p.shift k m).releases (n + k) j = p.releases n j := by
  have hreleases : ∀ j, (p.shift k m).releases (n + k) j = p.releases n j ↔
      ((p.unacked j).inUse = true →
        (n + k ≤ p.seqNum + k ∧ (p.unacked j).seqNum + k ≤ n + k ↔
          n ≤ p.seqNum ∧ (p.unacked j).seqNum ≤ n)) := by
    intro j
    have hshift : (p.shift k m).releases (n + k) j = (decide (n + k ≤ p.seqNum + k) &&
        ((p.unacked j).inUse && decide ((p.unacked j).seqNum + k ≤ n + k))) := rfl
    rw [hshift, Bool.eq_iff_iff]
    simp only [TcpPort.releases, Bool.and_eq_true, decide_eq_true_eq]
    cases (p.unacked j).inUse with
    | false => simp
    | true => simp only [true_and, true_implies]
  exact forall_congr' fun j => (hreleases j).symm

/-- The checks come out alike. -/
theorem checkSegment_shift (hfind : findSegmentPort g seg = some i) :
    checkSegment (g.shift k m i) (seg.shift k m) = checkSegment g seg := by
  have hs := Shifted.start k m i g
  have hfind' : findSegmentPort (g.shift k m i) (seg.shift k m) = some i := by
    rw [← hfind]
    have hsame : findSegmentPort (g.shift k m i) (seg.shift k m) =
        findSegmentPort (g.shift k m i) seg := by
      simp only [findSegmentPort, dstPort_header_shift, srcPort_header_shift, srcIpv4Addr_shift,
        syn_shift]
    rw [hsame]
    exact findSegmentPort_congr (fun j => by simp [hs.ports]) (fun j => by simp [hs.ports]) seg
  have hsequence : outOfSequence ((g.shift k m i).ports i) (seg.shift k m) =
      outOfSequence (g.ports i) seg := by
    have hne : (seg.header.seqNum + m != (g.ports i).ackNum + m) =
        (seg.header.seqNum != (g.ports i).ackNum) := by
      rw [Bool.eq_iff_iff]
      simp
    rw [hs.ports i, shiftAt_self]
    unfold outOfSequence
    rw [seqNum_header_shift]
    exact congrArg _ hne
  unfold checkSegment
  rw [headerLength_shift, hfind, hfind']
  dsimp only
  rw [hsequence, show ((g.shift k m i).ports i).state = (g.ports i).state by simp [hs.ports],
    rst_shift, ack_shift, syn_shift]

/-- Processing the shifted segment in the shifted state is the shift of processing the segment,
    exactly if the port does not accept the segment or the ACK loop releases the same entries. -/
theorem input_shift_iff (hfind : findSegmentPort g seg = some i)
    (hdefined : (inputTcpInternal g seg).final? = some g') :
    (inputTcpInternal g seg).Shifted k m i g
        (inputTcpInternal (g.shift k m i) (seg.shift k m)) ↔
      (checkSegment g seg = .accept i → seg.ack = true →
        SameReleases k (g.ports i) seg.header.ackNum) := by
  have hs := Shifted.start k m i g
  constructor
  · intro hshifted hcheck hack
    obtain ⟨h', hh', hstates⟩ := hshifted.final hdefined
    rw [sameReleases_iff (m := m)]
    intro j
    have hreleased := released_iff hdefined i j
    have hreleased' := released_iff hh' i j
    unfold Released at hreleased hreleased'
    rw [hs.inUse, hstates.inUse, hreleased, checkSegment_shift hfind, ack_shift, hs.ports i, shiftAt_self,
      ackNum_header_shift] at hreleased'
    rw [Bool.eq_iff_iff]
    simpa [hcheck, hack] using hreleased'.symm
  · intro hsame
    unfold inputTcpInternal
    rw [checkSegment_shift hfind]
    cases hcheck : checkSegment g seg with
    | discard why => exact .done (hs.warn why)
    | reset j => exact .done ((hs.warn .forciblyClosed).tcpResetPort j)
    | accept j =>
        obtain rfl : i = j := by
          have hj := (checkSegment_accept hcheck).1
          rw [hfind] at hj
          exact Option.some.inj hj
        dsimp only
        have hreleased : Shifted k m i g
            (if seg.ack then processAck g i seg.header.ackNum else g)
            (if (seg.shift k m).ack then
              processAck (g.shift k m i) i (seg.shift k m).header.ackNum
            else g.shift k m i) := by
          rw [ack_shift, ackNum_header_shift]
          split
          case isTrue hack => exact hs.processAck _ (sameReleases_iff.mp (hsame hcheck hack))
          case isFalse => exact hs
        unfold acceptSegment
        apply (hreleased.acknowledgeData seg).bind
        intro g₁ h₁ _ hstates
        have hwindow := hstates.update i
          (fun p => { p with otherWindow := seg.header.window }) fun _ => rfl
        rw [window_header_shift]
        exact hwindow.inputState seg

end Call

/-- The offset that takes the numbers of `hostSends` across the end of the sequence space. -/
def acrossWrap : BitVec 32 := 0xFFFFFFFE

/-- The acknowledgement of the three bytes, shifted by less than that. -/
theorem shifted_ack_covers :
    ∃ s g', run step (boot hostNet) hostSends = some s ∧
      (inputTcpInternal s.g (peerAcks 4)).final? = some g' ∧
      (inputTcpInternal s.g (peerAcks 4)).Shifted 1000 2000 0 s.g
        (inputTcpInternal (s.g.shift 1000 2000 0) ((peerAcks 4).shift 1000 2000)) := by
  obtain ⟨s, hs, hend⟩ := run_any
    (show (run step (boot hostNet) hostSends).any (fun s =>
      findSegmentPort s.g (peerAcks 4) == some 0 &&
      (inputTcpInternal s.g (peerAcks 4)).final?.isSome &&
      decide (∀ j, ((s.g.ports 0).unacked j).inUse = true →
        ((4 : BitVec 32) + 1000 ≤ (s.g.ports 0).seqNum + 1000 ∧
            ((s.g.ports 0).unacked j).seqNum + 1000 ≤ 4 + 1000 ↔
          4 ≤ (s.g.ports 0).seqNum ∧ ((s.g.ports 0).unacked j).seqNum ≤ 4))) = true by
      decide +kernel)
  simp only [Bool.and_eq_true, beq_iff_eq, Option.isSome_iff_exists, decide_eq_true_eq] at hend
  obtain ⟨⟨hfind, g', hg'⟩, hsame⟩ := hend
  refine ⟨s, g', hs, hg', (input_shift_iff hfind hg').mpr fun _ _ => ?_⟩
  rw [show (peerAcks 4).header.ackNum = 4 by decide +kernel]
  exact hsame

/-- Across the wrap the acknowledgement releases nothing: the entry begins above it. -/
theorem wrapped_ack_releases_nothing :
    ∃ s g' h', run step (boot hostNet) hostSends = some s ∧
      findSegmentPort s.g (peerAcks 4) = some 0 ∧ (s.g.ports 0).state ≠ .listen ∧
      (inputTcpInternal s.g (peerAcks 4)).final? = some g' ∧ Released s.g g' 0 0 ∧
      (inputTcpInternal (s.g.shift acrossWrap 0 0) ((peerAcks 4).shift acrossWrap 0)).final? =
        some h' ∧
      ¬ Released (s.g.shift acrossWrap 0 0) h' 0 0 ∧
      ¬ (inputTcpInternal s.g (peerAcks 4)).Shifted acrossWrap 0 0 s.g
        (inputTcpInternal (s.g.shift acrossWrap 0 0) ((peerAcks 4).shift acrossWrap 0)) := by
  obtain ⟨s, hs, hend⟩ := run_any
    (show (run step (boot hostNet) hostSends).any (fun s =>
      findSegmentPort s.g (peerAcks 4) == some 0 && (s.g.ports 0).state != .listen &&
      ((inputTcpInternal s.g (peerAcks 4)).final?.any fun g' =>
        ((s.g.ports 0).unacked 0).inUse && !((g'.ports 0).unacked 0).inUse) &&
      (inputTcpInternal (s.g.shift acrossWrap 0 0)
        ((peerAcks 4).shift acrossWrap 0)).final?.any fun h' =>
          ((h'.ports 0).unacked 0).inUse) = true by
      decide +kernel)
  simp only [Bool.and_eq_true, beq_iff_eq, bne_iff_ne, Option.any_eq_true, Bool.not_eq_true']
    at hend
  obtain ⟨⟨⟨hfind, hstate⟩, g', hg', hreleased⟩, h', hh', huse⟩ := hend
  have hnot : ¬ Released (s.g.shift acrossWrap 0 0) h' 0 0 := fun h =>
    Bool.false_ne_true (h.2.symm.trans huse)
  refine ⟨s, g', h', hs, hfind, hstate, hg', hreleased, hh', hnot, ?_⟩
  intro hshifted
  obtain ⟨h'', hh'', hstates⟩ := hshifted.final hg'
  obtain rfl := Option.some.inj (hh'.symm.trans hh'')
  rw [hstates.inUse, hreleased.2] at huse
  cases huse

end NetStack.Tcp
