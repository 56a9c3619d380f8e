import NetStack.Tcp.Proofs.Moves
import NetStack.Tcp.Proofs.Outcomes

/-!
# Which ports a call touches

`Confined S g g'`: from `g` to `g'` no port outside `S` has changed in any field, and no
callback of such a port has been called. One lemma for each function; what `input_tcp_internal`
does to the port it resolved is confined to that port, though the replies it queues are
resolved by key once more.
-/

namespace NetStack.Tcp
open NetStack.Lib

/-- The port whose callback the event is a call of. -/
def Event.callback? : Event → Option PortIdx
  | .onReceive i _ _ _ _ | .onConnect i _ | .onDisconnect i _ => some i
  | .warn _ | .malloc _ | .free _ | .queued _ _ _ | .transmit _ | .acked _ _ _ | .reset _ _ => none

/-- Only ports in `S` have changed, and only callbacks of these have been called. -/
structure Confined (S : Set PortIdx) (g g' : Globals) : Prop where
  ports : ∀ j ∉ S, g'.ports j = g.ports j
  log : ∃ l, g'.log = g.log ++ l ∧ ∀ e ∈ l, ∀ j, e.callback? = some j → j ∈ S

/-- A call that starts in `g` and is confined to `S`. -/
abbrev Outcome.Confined {α : Type} (S : Set PortIdx) (g : Globals) (o : Outcome α) : Prop :=
  o.Ends (NetStack.Tcp.Confined S g)

section Confined
variable {S : Set PortIdx} {g g' g'' : Globals}

theorem Confined.refl (S : Set PortIdx) (g : Globals) : Confined S g g :=
  ⟨fun _ _ => rfl, [], by simp⟩

theorem Confined.trans (h : Confined S g g') (h' : Confined S g' g'') : Confined S g g'' := by
  obtain ⟨l, hl, hcallbacks⟩ := h.log
  obtain ⟨l', hl', hcallbacks'⟩ := h'.log
  refine ⟨fun j hj => (h'.ports j hj).trans (h.ports j hj), l ++ l', ?_, ?_⟩
  · rw [hl', hl, List.append_assoc]
  · intro e he
    exact (List.mem_append.mp he).elim (hcallbacks e) (hcallbacks' e)

instance : IsPreorder Globals (Confined S) where
  refl := Confined.refl S
  trans _ _ _ := Confined.trans

theorem Confined.mono {T : Set PortIdx} (hST : S ⊆ T) (h : Confined S g g') : Confined T g g' := by
  obtain ⟨l, hl, hcallbacks⟩ := h.log
  exact ⟨fun j hj => h.ports j fun hS => hj (hST hS), l, hl,
    fun e he j hj => hST (hcallbacks e he j hj)⟩

/-- Ports in `S` change, and nothing is logged. -/
theorem confined_of_log_eq (hports : ∀ j ∉ S, g'.ports j = g.ports j) (hlog : g'.log = g.log) :
    Confined S g g' := ⟨hports, [], by simp [hlog]⟩

theorem confined_setPort {i : PortIdx} (hi : i ∈ S) (p : TcpPort) : Confined S g (g.setPort i p) :=
  confined_of_log_eq (fun j hj => Function.update_of_ne (fun h : j = i => hj (h ▸ hi)) _ _) rfl

theorem confined_emit {e : Event} (he : ∀ j, e.callback? = some j → j ∈ S) :
    Confined S g (g.emit e) :=
  ⟨fun _ _ => rfl, [e], rfl, fun _ hmem => (List.mem_singleton.mp hmem) ▸ he⟩

theorem confined_log {e : Event} (he : e.callback? = none) : Confined S g (g.emit e) :=
  confined_emit fun j hj => absurd (he.symm.trans hj) (by simp)

theorem confined_call {i : PortIdx} {e : Event} (he : e.callback? = some i) (hi : i ∈ S) :
    Confined S g (g.emit e) :=
  confined_emit fun _ hj => Option.some.inj (he.symm.trans hj) ▸ hi

theorem confined_warn (w : Warning) : Confined S g (g.warn w) := confined_log rfl

theorem confined_free (data : Option Block) : Confined S g (g.free data) := by
  cases data with
  | none => exact Confined.refl S g
  | some block => exact confined_log rfl

theorem confined_giveSlot {i : PortIdx} (hi : i ∈ S) : Confined S g (giveSlot g i) := by
  refine confined_of_log_eq (fun j hj => ?_) (log_giveSlot g i)
  rw [ports_giveSlot, Function.update_of_ne fun h : j = i => hj (h ▸ hi)]

end Confined

/-! ### The transmit path -/

section Send
variable {S : Set PortIdx} {g : Globals} {params : TcpTransmitParams}

theorem confined_enqueueTaken {i : PortIdx} {n : Nat} (hi : i ∈ S) :
    Confined S g (enqueueTaken g i n params).1 := by
  unfold enqueueTaken
  split_ifs
  · exact confined_free _
  · have hpush : Confined S g (g.pushSend params) := confined_of_log_eq (fun _ _ => rfl) rfl
    exact hpush.trans (confined_log rfl)
  · exact (confined_giveSlot hi).trans (confined_free _)

/-- Queueing a request touches the slots of the port it resolves to. -/
theorem confined_tcpEnqueueReliable {timeout : BitVec 32}
    (hfind : ∀ i, findParamsPort g params = some i → i ∈ S) :
    (tcpEnqueueReliable g params timeout).Confined S g := by
  unfold tcpEnqueueReliable
  cases hi : findPort g params.srcPort params.dstPort params.dstIpv4Addr with
  | none => exact ends_done (confined_free _)
  | some i =>
      have hS : i ∈ S := hfind i hi
      simp only
      cases (g.ports i).unackedSlots with
      | none => exact ends_undefined
      | some sem =>
          simp only
          cases sem.take with
          | none =>
              simp only
              split_ifs
              · exact ends_done (confined_free _)
              · exact ends_blocked (Confined.refl S g)
          | some sem' =>
              exact ends_done ((confined_setPort hS _).trans (confined_enqueueTaken hS))

theorem confined_sendIpv4Packet (t : Transmission) : Confined S g (sendIpv4Packet g t).1 := by
  have hsent : Confined S g (g.emit (.transmit t)) := confined_log rfl
  unfold sendIpv4Packet
  split
  · exact hsent
  · exact hsent.trans (confined_free t.ipv4.data)

/-- Transmitting a request touches the port it resolves to. -/
theorem confined_tcpSendInternal {env : SendEnv}
    (hfind : ∀ i, findParamsPort g params = some i → i ∈ S) :
    Confined S g (tcpSendInternal g params env).1 := by
  unfold tcpSendInternal
  cases env.malloc with
  | none => exact (confined_free _).trans (confined_warn _)
  | some heap =>
      simp only
      generalize hg₁ : Globals.emit { g with nextAddr := g.nextAddr + 1 } (.malloc g.nextAddr) = g₁
      have hports : g₁.ports = g.ports := by subst hg₁; rfl
      have hnext : Confined S g { g with nextAddr := g.nextAddr + 1 } :=
        confined_of_log_eq (fun _ _ => rfl) rfl
      have halloc : Confined S g g₁ := by
        subst hg₁
        exact hnext.trans (confined_log rfl)
      apply halloc.trans
      unfold sendAllocated
      cases hi : findPort g₁ params.srcPort params.dstPort params.dstIpv4Addr with
      | none => exact (confined_free _).trans (confined_warn _)
      | some i =>
          have hS : i ∈ S := by
            apply hfind i
            rw [← hi]
            exact (findParamsPort_congr (by simp [hports]) params).symm
          simp only
          split
          · split
            · exact (confined_free _).trans (confined_warn _)
            · exact (confined_setPort hS _).trans (confined_sendIpv4Packet _)
          · exact confined_sendIpv4Packet _

theorem confined_executeSend {env : SendEnv}
    (hfind : ∀ i, findParamsPort g params = some i → i ∈ S) :
    Confined S g (executeSend g params env) := by
  have hsend : Confined S g (tcpSendInternal g params env).1 := confined_tcpSendInternal hfind
  unfold executeSend
  simp only
  split
  · exact hsend
  · exact hsend.trans (confined_warn _)

end Send

/-! ### The receive path -/

section Receive
variable {S : Set PortIdx} {g : Globals} {i : PortIdx} {seg : Segment}

/-- A reset touches the port it is for and calls no callback. -/
theorem confined_tcpResetPort (hi : i ∈ S) : Confined S g (tcpResetPort g i) := by
  have hspec := tcpResetPort_spec g i
  obtain ⟨unacked, -, hports⟩ := hspec.ports
  obtain ⟨g₁, ⟨l, hl, hquiet⟩, hlog⟩ := hspec.log
  refine ⟨?_, l ++ [.reset i (g.ports i).incarnation], ?_, ?_⟩
  · intro j hj
    rw [hports, Function.update_of_ne fun h : j = i => hj (h ▸ hi)]
  · rw [hlog, hl, List.append_assoc]
  · intro e he j hj
    rcases List.mem_append.mp he with he | he
    · have := hquiet e he
      cases e <;> simp_all [Event.quiet, Event.callback?]
    · obtain rfl := List.mem_singleton.mp he
      cases hj

theorem confined_callOnConnect (hi : i ∈ S) : Confined S g (callOnConnect g i) := by
  unfold callOnConnect
  split
  · exact confined_call rfl hi
  · exact Confined.refl S g

theorem confined_callOnDisconnect {n : Option Nat} (hi : i ∈ S) :
    (callOnDisconnect g i n).Confined S g := by
  unfold callOnDisconnect
  split
  · exact ends_done (confined_call rfl hi)
  · exact ends_undefined

theorem confined_deliverData (hi : i ∈ S) : Confined S g (deliverData g i seg) := by
  unfold deliverData
  split
  · split
    · exact confined_call rfl hi
    · exact Confined.refl S g
  · exact Confined.refl S g

/-- What a segment resolves to depends on the keys and states of the ports only. -/
theorem findSegmentPort_congr {g' : Globals} (hkey : ∀ j, (g'.ports j).key = (g.ports j).key)
    (hstate : ∀ j, (g'.ports j).state = (g.ports j).state) (seg : Segment) :
    findSegmentPort g' seg = findSegmentPort g seg := by
  have hlisten : findListeningPort g' seg.header.dstPort =
      findListeningPort g seg.header.dstPort := by
    apply firstIdx_congr
    intro j
    have hsame := hkey j
    simp only [TcpPort.key, Prod.mk.injEq] at hsame
    rw [hsame.1, hsame.2.2, hstate j]
  rw [findSegmentPort, findSegmentPort, findPort_congr hkey, hlisten]

/-- From the lookup of the segment's port on, only that port has changed, and the lookup would
    still find it. -/
structure Resolved (g₀ : Globals) (i : PortIdx) (seg : Segment) (g : Globals) : Prop where
  confined : Confined {i} g₀ g
  find : findSegmentPort g seg = some i

namespace Resolved
variable {g₀ : Globals}

/-- The port changes, but not its key or state. -/
theorem setPort (h : Resolved g₀ i seg g) {p : TcpPort} {g' : Globals}
    (hports : g'.ports = Function.update g.ports i p) (hconfined : Confined {i} g g')
    (hkey : p.key = (g.ports i).key) (hstate : p.state = (g.ports i).state) :
    Resolved g₀ i seg g' := by
  refine ⟨h.confined.trans hconfined, ?_⟩
  rw [← h.find]
  refine findSegmentPort_congr (fun j => ?_) (fun j => ?_) seg <;> by_cases hj : j = i
  · subst hj
    simpa [hports] using hkey
  · simp [hports, hj]
  · subst hj
    simpa [hports] using hstate
  · simp [hports, hj]

theorem ackUnacked (h : Resolved g₀ i seg g) (n : BitVec 32) (j : UnackedIdx) :
    Resolved g₀ i seg (Tcp.ackUnacked i n j g) := by
  rw [ackUnacked_eq]
  split
  case isTrue =>
      refine h.setPort (p := (g.ports i).released j) ?_ ?_ rfl rfl
      · simp only [releaseUnacked, Globals.ports_free, Globals.ports_emit]
        exact ports_clearEntry g i j
      · refine Confined.trans ?_ (confined_free _)
        refine Confined.trans ?_ (confined_log rfl)
        exact (confined_setPort (Set.mem_singleton i) _).trans (confined_giveSlot (Set.mem_singleton i))
  case isFalse => exact h

theorem processAck (h : Resolved g₀ i seg g) (n : BitVec 32) :
    Resolved g₀ i seg (Tcp.processAck g i n) := by
  unfold Tcp.processAck
  split
  · exact forIdx_invariant (P := Resolved g₀ i seg) (fun j g hg => hg.ackUnacked n j) h
  · exact h

theorem acknowledgeData (h : Resolved g₀ i seg g) {g' : Globals} {u : Unit}
    (hdone : Tcp.acknowledgeData g i seg = .done g' u) : Resolved g₀ i seg g' := by
  rcases acknowledgeData_done hdone with ⟨-, -, rfl⟩ | ⟨-, rfl⟩
  · exact h.setPort (p := (g.ports i).advanced seg) rfl
      ((confined_setPort (Set.mem_singleton i) _).trans (confined_of_log_eq (fun _ _ => rfl) rfl)) rfl rfl
  · exact h

end Resolved

theorem confined_acknowledgeData : (acknowledgeData g i seg).Confined {i} g := by
  rw [acknowledgeData_eq]
  split_ifs
  · exact ends_done ((confined_setPort (Set.mem_singleton i) _).trans
      (confined_of_log_eq (fun _ _ => rfl) rfl))
  · exact ends_blocked (confined_setPort (Set.mem_singleton i) _)
  · exact ends_done (Confined.refl {i} g)

/-- The reply to a segment has the key by which the segment resolved to a port that does not
    listen. -/
theorem findParamsPort_reply (hfind : findSegmentPort g seg = some i)
    (hstate : (g.ports i).state ≠ .listen) (control : BitVec 8) :
    findParamsPort g (replyParams (g.ports i) seg.srcIpv4Addr control) = some i := by
  have hport := findParamsPort_of_segment hfind hstate
  apply findParamsPort_of_findPort hport
  have hkey := (findPort_eq_some_iff.mp hport).1
  simp only [TcpPort.key, Prod.mk.injEq] at hkey
  simp [TcpTransmitParams.key, replyParams, TcpPort.key, hkey]

theorem confined_inputListen (hfind : findSegmentPort g seg = some i) :
    (inputListen g i seg).Confined {i} g := by
  unfold inputListen
  split
  · exact ends_done (confined_warn _)
  · simp only [Globals.ports_setPort, Function.update_self]
    have henqueue : (tcpEnqueueReliable (g.setPort i ((g.ports i).takenOver seg))
        (replyParams ((g.ports i).takenOver seg) seg.srcIpv4Addr (SYN + ACK))
        portMaxDelay).Confined {i} (g.setPort i ((g.ports i).takenOver seg)) :=
      confined_tcpEnqueueReliable fun k hk =>
        Option.some.inj (hk.symm.trans (findParamsPort_takenOver hfind (SYN + ACK)))
    exact (henqueue.after (confined_setPort (Set.mem_singleton i) _)).ignore

theorem confined_inputEstablished (hfind : findSegmentPort g seg = some i)
    (hstate : (g.ports i).state ≠ .listen) : (inputEstablished g i seg).Confined {i} g := by
  unfold inputEstablished
  split
  · refine (confined_tcpEnqueueReliable fun k hk => ?_).bind fun g' _ _ =>
      ends_done ((confined_setPort (Set.mem_singleton i) _).trans
        (confined_deliverData (Set.mem_singleton i)))
    exact Option.some.inj (hk.symm.trans (findParamsPort_reply hfind hstate (FIN + ACK)))
  · exact ends_done (confined_deliverData (Set.mem_singleton i))

theorem confined_inputLastAck : (inputLastAck g i seg).Confined {i} g := by
  unfold inputLastAck
  split_ifs
  · exact ends_done (confined_warn _)
  · exact ends_done (confined_warn _)
  · exact (confined_callOnDisconnect (Set.mem_singleton i)).after
      (confined_tcpResetPort (Set.mem_singleton i))

theorem confined_enterTimeWait : (enterTimeWait g i).Confined {i} g :=
  (confined_callOnDisconnect (Set.mem_singleton i)).after (confined_setPort (Set.mem_singleton i) _)

/-- The case of the port's state is confined to the port. -/
theorem confined_inputState (hfind : findSegmentPort g seg = some i) :
    (inputState g i seg).Confined {i} g := by
  unfold inputState
  split
  case h_1 => exact confined_inputListen hfind
  case h_2 =>
      unfold inputSynSent
      split_ifs
      · exact ends_done (confined_warn _)
      · exact ends_done (confined_warn _)
      · exact ends_done ((confined_setPort (Set.mem_singleton i) _).trans
          (confined_callOnConnect (Set.mem_singleton i)))
  case h_3 =>
      unfold inputSynReceived
      split_ifs
      · exact ends_done (confined_warn _)
      · exact ends_done (confined_warn _)
      · exact ends_done ((confined_setPort (Set.mem_singleton i) _).trans
          (confined_callOnConnect (Set.mem_singleton i)))
  case h_4 hstate => exact confined_inputEstablished hfind (by simp [hstate])
  case h_5 => exact confined_inputLastAck
  case h_6 =>
      unfold inputFinWait1
      split_ifs
      · exact confined_enterTimeWait
      · exact ends_done (Confined.refl {i} g)
      · exact ends_done (confined_setPort (Set.mem_singleton i) _)
  case h_7 =>
      unfold inputFinWait2
      split_ifs
      · exact ends_done (Confined.refl {i} g)
      · exact confined_enterTimeWait
  all_goals exact ends_done (Confined.refl {i} g)

theorem confined_acceptSegment (hfind : findSegmentPort g seg = some i) :
    (acceptSegment g i seg).Confined {i} g := by
  have hreleased : Resolved g i seg (if seg.ack then processAck g i seg.header.ackNum else g) := by
    have hstart : Resolved g i seg g := ⟨Confined.refl {i} g, hfind⟩
    split
    · exact hstart.processAck seg.header.ackNum
    · exact hstart
  unfold acceptSegment
  refine (confined_acknowledgeData.after hreleased.confined).bind fun g₁ u hdone => ?_
  have hacked := hreleased.acknowledgeData hdone
  have hwindow := hacked.setPort (p := { g₁.ports i with otherWindow := seg.header.window })
    rfl (confined_setPort (Set.mem_singleton i) _) rfl rfl
  exact (confined_inputState hwindow.find).after (confined_setPort (Set.mem_singleton i) _)

/-- What a verdict makes `input_tcp_internal` touch. -/
def Verdict.touched : Verdict → Set PortIdx
  | .discard _ => ∅
  | .reset i | .accept i => {i}

/-- A segment touches at most the port that it passes the checks for, or resets. -/
theorem confined_inputTcpInternal (g : Globals) (seg : Segment) :
    (inputTcpInternal g seg).Confined (checkSegment g seg).touched g := by
  unfold inputTcpInternal
  cases hverdict : checkSegment g seg with
  | discard why => exact ends_done (confined_warn _)
  | reset i =>
      exact ends_done (Confined.trans (confined_warn _) (confined_tcpResetPort (Set.mem_singleton i)))
  | accept i => exact confined_acceptSegment (checkSegment_accept hverdict).1

end Receive

/-! ### A step of `tcp_task` -/

/-- The connection that an iteration of `tcp_task` is for. -/
def TaskInput.key? : TaskInput → Option Key
  | .send params => some params.key
  | .segment seg => some seg.key
  | .cmd (.createAndConnect self other addr _ _ _) => some (self, other, addr)
  | .cmd (.createAndListen self _ _ _) => some (self, 0, ipv4AllZeroes)
  | .cmd (.close self other addr) => some (self, other, addr)
  | .scan | .nothing => none

/-- The port that gets the connection: the listening port for a SYN whose key no port has, or
    the free port that a create command fills. -/
def takenPort (g : Globals) : TaskInput → Option PortIdx
  | .segment seg =>
      if seg.syn && (findPort g seg.header.dstPort seg.header.srcPort seg.srcIpv4Addr).isNone then
        findListeningPort g seg.header.dstPort
      else none
  | .cmd (.createAndConnect _ _ _ _ _ _) | .cmd (.createAndListen _ _ _ _) => findUnusedPort g
  | .cmd (.close _ _ _) | .send _ | .scan | .nothing => none

/-- The ports that an iteration of `tcp_task` for the connection may touch. -/
def portsOf (g : Globals) (key : Key) (input : TaskInput) : Set PortIdx :=
  {j | (g.ports j).key = key ∨ takenPort g input = some j}

section Task
variable {g : Globals}

theorem mem_portsOf_segment {seg : Segment} {i : PortIdx} (hfind : findSegmentPort g seg = some i) :
    i ∈ portsOf g seg.key (.segment seg) := by
  unfold findSegmentPort at hfind
  split at hfind
  case h_1 j hj =>
      obtain rfl := Option.some.inj hfind
      exact .inl (findPort_eq_some_iff.mp hj).1
  case h_2 hnone =>
      split at hfind
      case isTrue hsyn =>
          right
          simpa [takenPort, hsyn, hnone] using hfind
      case isFalse => cases hfind

theorem confined_segment (seg : Segment) :
    (inputTcpInternal g seg).Confined (portsOf g seg.key (.segment seg)) g := by
  intro g' hg'
  apply (confined_inputTcpInternal g seg g' hg').mono
  intro i hi
  cases hverdict : checkSegment g seg with
  | discard why => simp [hverdict, Verdict.touched] at hi
  | reset k =>
      obtain rfl : i = k := by simpa [hverdict, Verdict.touched] using hi
      exact mem_portsOf_segment (checkSegment_reset hverdict).1
  | accept k =>
      obtain rfl : i = k := by simpa [hverdict, Verdict.touched] using hi
      exact mem_portsOf_segment (checkSegment_accept hverdict).1

/-- Without a new port a create command changes no port. -/
theorem confined_tcpCreatePortInternal_none {S : Set PortIdx} {src : BitVec 16}
    {onReceive onConnect onDisconnect : Option FnPtr} {semaphore : Bool}
    (h : (tcpCreatePortInternal g src onReceive onConnect onDisconnect semaphore).2 = none) :
    Confined S g (tcpCreatePortInternal g src onReceive onConnect onDisconnect semaphore).1 := by
  unfold tcpCreatePortInternal at h ⊢
  cases semaphore with
  | false => exact Confined.refl S g
  | true =>
      cases hfind : findUnusedPort g with
      | none =>
          simp only [if_true]
          exact confined_of_log_eq (fun _ _ => rfl) rfl
      | some k => simp [hfind] at h

/-- A new port is filled. -/
theorem confined_fill {S : Set PortIdx} {i : PortIdx} (hi : i ∈ S) (p : TcpPort) :
    Confined S g (Globals.setPort { g with nextAddr := g.nextAddr + 1 } i p) :=
  confined_of_log_eq (fun j hj => Function.update_of_ne (fun h : j = i => hj (h ▸ hi)) _ _) rfl

theorem confined_connect {self other : BitVec 16} {addr : Ipv4Addr}
    {onReceive onConnect onDisconnect : Option FnPtr} {semaphore : Bool} :
    (tcpConnectPortInternal g self other addr onReceive onConnect onDisconnect semaphore).Confined
      (portsOf g (self, other, addr)
        (.cmd (.createAndConnect self other addr onReceive onConnect onDisconnect))) g := by
  unfold tcpConnectPortInternal
  simp only
  split
  case h_1 hnone => exact ends_done (confined_tcpCreatePortInternal_none hnone)
  case h_2 i hsome =>
      obtain ⟨hunused, hcreate⟩ := tcpCreatePortInternal_some hsome
      have hi : i ∈ portsOf g (self, other, addr)
          (.cmd (.createAndConnect self other addr onReceive onConnect onDisconnect)) := .inr hunused
      rw [hcreate]
      refine fun g' h => ((confined_fill hi _).trans (confined_setPort hi _)).trans
        (confined_tcpEnqueueReliable (fun k hk => ?_) g' h)
      -- the SYN resolves to the new port, or to an older one with the same key
      by_cases hki : k = i
      · exact hki ▸ hi
      · have hkey := findParamsPort_key hk
        simp only [Globals.ports_setPort, Function.update_of_ne hki] at hkey
        exact .inl (hkey.trans (by simp [TcpTransmitParams.key, synRequest, connectingPort, newPort]))

theorem confined_listen {self : BitVec 16} {onReceive onConnect onDisconnect : Option FnPtr}
    {semaphore : Bool} {key : Key} :
    Confined (portsOf g key (.cmd (.createAndListen self onReceive onConnect onDisconnect))) g
      (tcpListenPortInternal g self onReceive onConnect onDisconnect semaphore).1 := by
  unfold tcpListenPortInternal
  simp only
  split
  case h_1 hnone => exact confined_tcpCreatePortInternal_none hnone
  case h_2 i hsome =>
      obtain ⟨hunused, hcreate⟩ := tcpCreatePortInternal_some hsome
      rw [hcreate]
      exact (confined_fill (.inr hunused) _).trans (confined_setPort (.inr hunused) _)

theorem confined_close {self other : BitVec 16} {addr : Ipv4Addr} :
    (tcpClosePortInternal g self other addr).Confined
      (portsOf g (self, other, addr) (.cmd (.close self other addr))) g := by
  unfold tcpClosePortInternal
  split
  case h_1 => exact ends_done (Confined.refl _ g)
  case h_2 i hfind =>
      have hi : i ∈ portsOf g (self, other, addr) (.cmd (.close self other addr)) :=
        .inl (findPort_eq_some_iff.mp hfind).1
      refine fun g' h => (confined_setPort hi _).trans
        (confined_tcpEnqueueReliable (fun k hk => ?_) g' h)
      exact Option.some.inj (hk.symm.trans (findParamsPort_closing (Stage.refl g) hfind)) ▸ hi

/-- An iteration of `tcp_task` for a connection touches its ports only. -/
theorem confined_executeInput {input : TaskInput} {key : Key} (hkey : input.key? = some key)
    (env : TaskEnv) : (executeInput g input env).Confined (portsOf g key input) g := by
  cases input with
  | scan | nothing => cases hkey
  | send params =>
      obtain rfl := Option.some.inj hkey
      exact ends_done (confined_executeSend fun i hi => .inl (findParamsPort_key hi))
  | segment seg =>
      obtain rfl := Option.some.inj hkey
      exact confined_segment seg
  | cmd cmd =>
      cases cmd with
      | createAndConnect self other addr onReceive onConnect onDisconnect =>
          obtain rfl := Option.some.inj hkey
          exact confined_connect.ignore
      | createAndListen self onReceive onConnect onDisconnect =>
          exact ends_done confined_listen
      | close self other addr =>
          obtain rfl := Option.some.inj hkey
          exact confined_close.ignore

theorem selectInput_ports (g : Globals) : (selectInput g).1.ports = g.ports := by
  cases hin : (selectInput g).2 with
  | send params =>
      obtain ⟨set, rest, -, hsel⟩ := selectInput_send hin
      rw [hsel]
  | scan | segment | cmd | nothing => exact (selectInput_quiet (by simp [hin])).2.1

theorem portsOf_congr {g' : Globals} (hports : g'.ports = g.ports) (key : Key)
    (input : TaskInput) : portsOf g' key input = portsOf g key input := by
  have htaken : takenPort g' input = takenPort g input := by
    unfold takenPort findPort findListeningPort findUnusedPort
    rw [hports]
  rw [portsOf, portsOf, hports, htaken]

/-- A step of `tcp_task` leaves the state that its iteration leaves. -/
theorem step_task_final {s s' : System} {env : TaskEnv} (h : step s (.tcpTask env) = some s') :
    (tcpTaskIteration s.g env).final? = some s'.g := by
  simp only [step] at h
  split at h
  · cases ho : tcpTaskIteration s.g env with
    | undefined => simp [ho, afterTask] at h
    | done g u | blocked g on =>
        rw [ho] at h
        obtain rfl := Option.some.inj h
        rfl
  · cases h

/-- A step of `tcp_task` for a connection leaves every other port as it was. -/
theorem task_ports {s s' : System} {env : TaskEnv} {key : Key} {j : PortIdx}
    (h : step s (.tcpTask env) = some s') (hkey : (selectInput s.g).2.key? = some key)
    (hj : j ∉ portsOf s.g key (selectInput s.g).2) : s'.g.ports j = s.g.ports j := by
  have hconfined := confined_executeInput (g := (selectInput s.g).1) hkey env
  rw [portsOf_congr (selectInput_ports s.g)] at hconfined
  rw [← congrFun (selectInput_ports s.g) j]
  exact (hconfined s'.g (step_task_final h)).ports j hj

end Task

/-! ### The calls of a callback -/

/-- The port after `n` of its slots have been taken. -/
def TcpPort.taking (p : TcpPort) (n : Nat) : TcpPort :=
  { p with unackedSlots := p.unackedSlots.map (·.takes n) }

@[simp] theorem TcpPort.taking_zero (p : TcpPort) : p.taking 0 = p := by
  simp [taking]

theorem TcpPort.taking_taking (p : TcpPort) (m n : Nat) :
    (p.taking m).taking n = p.taking (m + n) := by
  simp [taking, Function.comp_def, CountingSemaphore.takes_takes]

@[simp] theorem TcpPort.taking_key (p : TcpPort) (n : Nat) : (p.taking n).key = p.key := rfl

/-- A call of the public API by a callback that `tcp_task` runs. -/
def Action.inCallback : Action → Bool
  | .tcpSend inCallback _ _ _ _ _ _ => inCallback
  | .tcpConnectPort _ _ _ _ _ _ | .tcpListenPort _ _ _ _ | .tcpClosePort _ _ _ => true
  | .tcpTask _ | .resumeSender _ _ | .timeoutSender _ | .inputTcp _ _ _ _ | .tick => false

/-- A call of `tcp_send` for the connection. -/
def Action.sendsTo (key : Key) : Action → Bool
  | .tcpSend _ src dst addr _ _ _ => (src, dst, addr) == key
  | _ => false

section Callback
variable {g g' : Globals} {j : PortIdx}

/-- A port loses at most one slot to a request, and none unless the request resolves to it. -/
def TakenFrom (g g' : Globals) (j : PortIdx) (resolves : Prop) : Prop :=
  g'.ports j = g.ports j ∨ resolves ∧ g'.ports j = (g.ports j).taking 1

theorem TakenFrom.trans_eq {resolves : Prop} {g'' : Globals} (h : TakenFrom g g' j resolves)
    (hports : g''.ports = g'.ports) : TakenFrom g g'' j resolves := by
  rwa [TakenFrom, hports]

theorem tcpEnqueueReliable_takenFrom {params : TcpTransmitParams} {timeout : BitVec 32}
    (h : (tcpEnqueueReliable g params timeout).final? = some g') :
    TakenFrom g g' j (findParamsPort g params = some j) := by
  unfold tcpEnqueueReliable at h
  cases hi : findPort g params.srcPort params.dstPort params.dstIpv4Addr with
  | none =>
      rw [hi] at h
      obtain rfl := Option.some.inj h
      exact .inl (by simp)
  | some i =>
      have hfind : findParamsPort g params = some i := hi
      simp only [hi] at h
      cases hsem : (g.ports i).unackedSlots with
      | none => simp [hsem, Outcome.final?] at h
      | some sem =>
          simp only [hsem] at h
          cases htake : sem.take with
          | none =>
              simp only [htake] at h
              split_ifs at h <;> obtain rfl := Option.some.inj h <;> exact .inl (by simp)
          | some sem' =>
              simp only [htake] at h
              obtain rfl := Option.some.inj h
              have htaken : { g.ports i with unackedSlots := some sem' } = (g.ports i).taking 1 := by
                simp [TcpPort.taking, hsem, CountingSemaphore.take_eq_takes htake]
              rw [htaken]
              by_cases hj : j = i
              · subst hj
                unfold enqueueTaken
                split_ifs
                · exact .inr ⟨hfind, by simp⟩
                · exact .inr ⟨hfind, by simp⟩
                · -- the slot is given back
                  left
                  rw [Globals.ports_free, ports_giveSlot, Globals.ports_setPort,
                    Function.update_self, Function.update_self, ← htaken, TcpPort.given]
                  simp [CountingSemaphore.take_give htake, ← hsem]
              · have htake : Confined {i} g (g.setPort i ((g.ports i).taking 1)) :=
                  confined_setPort (Set.mem_singleton i) _
                exact .inl ((htake.trans (confined_enqueueTaken (Set.mem_singleton i))).ports j hj)

theorem callTcpSend_takenFrom {inCallback : Bool} {src dst : BitVec 16} {addr : Ipv4Addr}
    {data : Option Memory} {len : BitVec 16} {timeout : BitVec 32}
    (h : (callTcpSend g inCallback src dst addr data len timeout).final? = some g') :
    TakenFrom g g' j ((g.ports j).key = (src, dst, addr)) := by
  generalize hallocated : ({ g with nextAddr := g.nextAddr + 1 } : Globals) = allocated
  have hports : allocated.ports = g.ports := hallocated ▸ rfl
  unfold callTcpSend at h
  simp only [hallocated] at h
  generalize (data.map fun bytes => (⟨g.nextAddr, bytes⟩ : Block)) = block at h
  -- `tcp_send` resolves its port once more by the key it has found it with
  have hsend : ∀ g₁, (tcpSend allocated src dst addr block len timeout).final? = some g₁ →
      TakenFrom g g₁ j ((g.ports j).key = (src, dst, addr)) := by
    intro g₁ hg₁
    unfold tcpSend at hg₁
    cases hi : findPort allocated src dst addr with
    | none =>
        rw [hi] at hg₁
        obtain rfl := Option.some.inj hg₁
        exact .inl (by simp [hports])
    | some i =>
        rw [hi] at hg₁
        have hkey := (findPort_eq_some_iff.mp hi).1
        rcases tcpEnqueueReliable_takenFrom (j := j) hg₁ with hsame | ⟨hfind, htaken⟩
        · exact .inl (hsame.trans (congrFun hports j))
        · refine .inr ⟨?_, htaken.trans (by rw [hports])⟩
          rw [← hports, findParamsPort_key hfind]
          exact hkey
  cases ho : tcpSend allocated src dst addr block len timeout with
  | undefined => simp [ho, Outcome.final?] at h
  | done g₁ r =>
      rw [ho] at h hsend
      exact hsend g' h
  | blocked g₁ on =>
      rw [ho] at h hsend
      have hg₁ := hsend g₁ rfl
      cases on with
      | sendQueue => exact Option.some.inj h ▸ hg₁
      | slots i =>
          simp only at h
          split_ifs at h
          · unfold addSender at h
            split at h
            · obtain rfl := Option.some.inj h
              exact hg₁.trans_eq rfl
            · cases h
          · exact Option.some.inj h ▸ hg₁
          · obtain rfl := Option.some.inj h
            exact hg₁.trans_eq (Globals.ports_free g₁ block)

theorem step_tcpSend_final {s s' : System} {inCallback : Bool} {src dst : BitVec 16}
    {addr : Ipv4Addr} {data : Option Memory} {len : BitVec 16} {timeout : BitVec 32}
    (h : step s (.tcpSend inCallback src dst addr data len timeout) = some s') :
    (callTcpSend s.g inCallback src dst addr data len timeout).final? = some s'.g := by
  simp only [step] at h
  split_ifs at h
  split at h
  case h_1 g heq =>
      obtain rfl := Option.some.inj h
      rw [heq]
      rfl
  case h_2 g r heq =>
      obtain rfl := Option.some.inj h
      rw [heq]
      rfl
  case h_3 => cases h

/-- A call of a callback takes at most one slot of a port, in a `tcp_send` for its key. -/
theorem inCallback_ports {s s' : System} {a : Action} (ha : a.inCallback = true)
    (h : step s a = some s') :
    ∃ n ≤ if a.sendsTo (s.g.ports j).key then 1 else 0, s'.g.ports j = (s.g.ports j).taking n := by
  cases a with
  | tcpSend inCallback src dst addr data len timeout =>
      rcases callTcpSend_takenFrom (j := j) (step_tcpSend_final h) with hsame | ⟨hkey, htaken⟩
      · exact ⟨0, Nat.zero_le _, by simpa using hsame⟩
      · exact ⟨1, by simp [Action.sendsTo, hkey], htaken⟩
  | tcpConnectPort | tcpListenPort | tcpClosePort =>
      refine ⟨0, Nat.zero_le _, ?_⟩
      obtain rfl := Option.some.inj h
      simp only [tcpConnectPort, tcpListenPort, tcpClosePort, sendPortCmd, TcpPort.taking_zero]
      split <;> rfl
  | tcpTask | resumeSender | timeoutSender | inputTcp | tick => cases ha

/-- The calls of the callbacks of a step. -/
theorem inCallback_run {calls : List Action} {s s' : System}
    (hcalls : ∀ a ∈ calls, a.inCallback = true) (hrun : run step s calls = some s') :
    ∃ n ≤ calls.countP (·.sendsTo (s.g.ports j).key), s'.g.ports j = (s.g.ports j).taking n := by
  induction calls generalizing s with
  | nil =>
      obtain rfl := Option.some.inj hrun
      exact ⟨0, Nat.zero_le _, by simp⟩
  | cons a calls ih =>
      rw [run_cons] at hrun
      obtain ⟨s₁, hs₁, hrun⟩ := Option.bind_eq_some_iff.mp hrun
      obtain ⟨m, hm, hfirst⟩ := inCallback_ports (j := j) (hcalls a List.mem_cons_self) hs₁
      obtain ⟨n, hn, hrest⟩ := ih (fun b hb => hcalls b (List.mem_cons_of_mem a hb)) hrun
      refine ⟨m + n, ?_, by rw [hrest, hfirst, TcpPort.taking_taking]⟩
      rw [hfirst, TcpPort.taking_key] at hn
      rw [List.countP_cons]
      omega

end Callback

/-- A step of `tcp_task` for a connection, with the calls that its callbacks make, leaves every
    port of another key as it was, but for the listening port that takes a SYN, the free port that
    a create command fills, and the slots that callbacks take with `tcp_send` for that other
    key. -/
theorem task_step_isolated {s s' : System} {env : TaskEnv} {calls : List Action} {key : Key}
    {j : PortIdx} (hcalls : ∀ a ∈ calls, a.inCallback = true)
    (hrun : run step s (.tcpTask env :: calls) = some s')
    (hkey : (selectInput s.g).2.key? = some key) (hother : (s.g.ports j).key ≠ key)
    (htaken : takenPort s.g (selectInput s.g).2 ≠ some j) :
    ∃ n ≤ calls.countP (·.sendsTo (s.g.ports j).key), s'.g.ports j = (s.g.ports j).taking n := by
  rw [run_cons] at hrun
  obtain ⟨s₁, hs₁, hrun⟩ := Option.bind_eq_some_iff.mp hrun
  have hports := task_ports hs₁ hkey (j := j) (by simp [portsOf, hother, htaken])
  rw [← hports]
  exact inCallback_run hcalls hrun

/-- Two peers are connected, and a segment of one with three bytes has arrived. -/
def twoConnections : List Action :=
  handshake peerNet.ip ++ [.tcpListenPort 80 (some 1) (some 2) (some 3), iterates,
    arrives peerNet.ip 5001 80 0 0 SYN [], iterates, iterates,
    arrives peerNet.ip 5001 80 1 1 ACK [], iterates,
    arrives peerNet.ip 5000 80 1 1 (ACK + PSH) [1, 2, 3]]

/-- `on_receive` forwards what it has received to the other peer. -/
def forwards : Action := .tcpSend true 80 5001 peerNet.ip (some fun _ => 1) 3 portMaxDelay

/-- The key of the first peer's connection. -/
def firstKey : Key := (80, 5000, peerNet.ip)

/-- A step for the first connection leaves the second as it was. -/
theorem second_connection_isolated :
    ∃ s s', run step (boot hostNet) twoConnections = some s ∧
      run step s [iterates] = some s' ∧ s'.g.ports 1 = s.g.ports 1 := by
  obtain ⟨s, hs, hend⟩ := run_any
    (show (run step (boot hostNet) twoConnections).any (fun s =>
      (selectInput s.g).2.key? == some firstKey && (s.g.ports 1).key != firstKey &&
        (takenPort s.g (selectInput s.g).2 != some 1 && (run step s [iterates]).isSome)) = true by
      decide +kernel)
  simp only [Bool.and_eq_true, beq_iff_eq, bne_iff_ne, Option.isSome_iff_exists] at hend
  obtain ⟨⟨hkey, hother⟩, htaken, s', hs'⟩ := hend
  obtain ⟨n, hn, hports⟩ := task_step_isolated (by simp) hs' hkey hother htaken
  obtain rfl : n = 0 := by simpa using hn
  exact ⟨s, s', hs, hs', by simpa using hports⟩

/-- The forwarding callback of the first connection takes a slot of the second. -/
theorem callback_takes_other_slot :
    ∃ s s₁ s', run step (boot hostNet) twoConnections = some s ∧ step s iterates = some s₁ ∧
      (∃ e ∈ s₁.g.log.drop s.g.log.length, e.callback? = some 0) ∧ step s₁ forwards = some s' ∧
      (selectInput s.g).2.key? = some firstKey ∧ (s.g.ports 1).key ≠ firstKey ∧
      takenPort s.g (selectInput s.g).2 ≠ some 1 ∧ s'.g.ports 1 ≠ s.g.ports 1 := by
  obtain ⟨s, hs, hend⟩ := run_any
    (show (run step (boot hostNet) twoConnections).any (fun s =>
      (selectInput s.g).2.key? == some firstKey && (s.g.ports 1).key != firstKey &&
        takenPort s.g (selectInput s.g).2 != some 1 &&
          (step s iterates).any fun s₁ =>
            (s₁.g.log.drop s.g.log.length).any (·.callback? == some 0) &&
              (step s₁ forwards).any fun s' => (s'.g.ports 1).slots != (s.g.ports 1).slots) =
        true by decide +kernel)
  simp only [Bool.and_eq_true, beq_iff_eq, bne_iff_ne, Option.any_eq_true, List.any_eq_true] at hend
  obtain ⟨⟨⟨hkey, hother⟩, htaken⟩, s₁, hs₁, hcallback, s', hs', hslots⟩ := hend
  exact ⟨s, s₁, s', hs, hs₁, hcallback, hs', hkey, hother, htaken, fun hsame =>
    hslots (congrArg TcpPort.slots hsame)⟩

end NetStack.Tcp
