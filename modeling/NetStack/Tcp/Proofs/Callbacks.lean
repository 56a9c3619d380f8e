import NetStack.Tcp.Proofs.Lifetimes
import NetStack.Tcp.Proofs.Isolation

/-!
# Pairing of connect and disconnect callbacks

What a port's incarnation has been told about its connection follows from the port's state: it
is connected from `ESTABLISHED` on, and disconnected from `TIME_WAIT` on. The states keep in
step with the calls as long as a close command finds its port connected, and an RST does not.
-/

namespace NetStack.Tcp
open NetStack.Lib

/-- What a port tells its application about the connection. -/
inductive Call where
  | connect
  | disconnect
  deriving DecidableEq, Repr

/-- The call that an event is to incarnation `n` of slot `i`. -/
def Event.call? (i : PortIdx) (n : Nat) : Event → Option Call
  | .onConnect k m => if k = i ∧ m = some n then some .connect else none
  | .onDisconnect k m => if k = i ∧ m = some n then some .disconnect else none
  | .warn _ | .malloc _ | .free _ | .queued _ _ _ | .transmit _ | .acked _ _ _ | .reset _ _
  | .onReceive _ _ _ _ _ => none

/-- The calls of `on_connect` and `on_disconnect` to incarnation `n` of slot `i`. -/
def calls (log : List Event) (i : PortIdx) (n : Nat) : List Call :=
  log.filterMap (Event.call? i n)

/-- The calls that a port in the state has made. -/
def TcpState.called : TcpState → List Call
  | .closed | .listen | .synSent | .synReceived => []
  | .established | .finWait1 | .closeWait | .finWait2 | .lastAck => [.connect]
  | .timeWait => [.connect, .disconnect]

/-- A close command finds its port connected, and an RST resets no port that is. -/
def callsPaired (s : System) : Action → Bool
  | .tcpTask _ =>
      match (selectInput s.g).2 with
      | .segment seg =>
          match checkSegment s.g seg with
          | .reset i => (s.g.ports i).state.called != [.connect]
          | _ => true
      | .cmd (.close self other addr) =>
          (findPort s.g self other addr).all fun i => (s.g.ports i).state.called == [.connect]
      | _ => true
  | _ => true

theorem calls_append (log l : List Event) (i : PortIdx) (n : Nat) :
    calls (log ++ l) i n = calls log i n ++ calls l i n := by
  simp [calls]

/-- From `g` to `g'` port `i` has kept its incarnation and its callbacks, `new` has been called,
    and the port has not been reset. -/
structure Progress (i : PortIdx) (new : List Call) (g g' : Globals) : Prop where
  incarnation : (g'.ports i).incarnation = (g.ports i).incarnation
  onConnect : (g'.ports i).onConnect = (g.ports i).onConnect
  calls : ∀ n, calls g'.log i n =
    calls g.log i n ++ if (g.ports i).incarnation = some n then new else []
  resets : ∀ n, .reset i (some n) ∈ g'.log → .reset i (some n) ∈ g.log

section Progress
variable {i : PortIdx} {g g' g'' : Globals} {new new' : List Call}

theorem Progress.trans (h : Progress i new g g') (h' : Progress i new' g' g'') :
    Progress i (new ++ new') g g'' := by
  refine ⟨h'.incarnation.trans h.incarnation, h'.onConnect.trans h.onConnect, fun n => ?_,
    fun n hn => h.resets n (h'.resets n hn)⟩
  rw [h'.calls n, h.calls n, h.incarnation]
  split <;> simp

/-- Nothing is called and nothing reset. -/
theorem Progress.of_log (hinc : (g'.ports i).incarnation = (g.ports i).incarnation)
    (honConnect : (g'.ports i).onConnect = (g.ports i).onConnect)
    (hlog : ∃ l, g'.log = g.log ++ l ∧
      ∀ e ∈ l, ∀ n, e.call? i n = none ∧ e ≠ .reset i (some n)) : Progress i [] g g' := by
  obtain ⟨l, hl, hevents⟩ := hlog
  refine ⟨hinc, honConnect, ?_, ?_⟩
  · intro n
    have hnil : NetStack.Tcp.calls l i n = [] :=
      List.filterMap_eq_nil_iff.mpr fun e he => (hevents e he n).1
    rw [hl, calls_append, hnil]
    simp
  · intro n hn
    rw [hl] at hn
    exact (List.mem_append.mp hn).resolve_right fun hmem => (hevents _ hmem n).2 rfl

theorem Progress.refl (i : PortIdx) (g : Globals) : Progress i [] g g :=
  .of_log rfl rfl ⟨[], by simp⟩

/-- A port is changed, but not its incarnation and its callbacks. -/
theorem Progress.setPort {k : PortIdx} {p : TcpPort}
    (hports : g'.ports = Function.update g.ports k p) (hlog : g'.log = g.log)
    (hinc : p.incarnation = (g.ports k).incarnation)
    (honConnect : p.onConnect = (g.ports k).onConnect) : Progress i [] g g' := by
  refine .of_log ?_ ?_ ⟨[], by simp [hlog]⟩ <;> by_cases hi : i = k
  · subst hi
    simpa [hports] using hinc
  · simp [hports, hi]
  · subst hi
    simpa [hports] using honConnect
  · simp [hports, hi]

theorem progress_setState {k : PortIdx} (state : TcpState) : Progress i [] g (g.setState k state) :=
  .setPort rfl rfl rfl rfl

/-- An event that is no call and no reset. -/
theorem Progress.emit {e : Event}
    (he : ∀ n, e.call? i n = none ∧ e ≠ .reset i (some n)) : Progress i [] g (g.emit e) :=
  .of_log rfl rfl ⟨[e], rfl, fun _ hmem => List.mem_singleton.mp hmem ▸ he⟩

/-- A call to the port. -/
theorem Progress.call {e : Event} {c : Call}
    (he : ∀ n, e.call? i n = if (g.ports i).incarnation = some n then some c else none)
    (hreset : ∀ n, e ≠ .reset i (some n)) : Progress i [c] g (g.emit e) := by
  refine ⟨rfl, rfl, ?_, ?_⟩
  · intro n
    rw [Globals.log_emit, calls_append]
    congr 1
    rw [NetStack.Tcp.calls, List.filterMap_cons, he n]
    split <;> simp_all
  · intro n hn
    exact (List.mem_append.mp hn).resolve_right fun hmem =>
      hreset n (List.mem_singleton.mp hmem).symm

theorem Event.quiet_call {e : Event} (h : e.quiet = true) (i : PortIdx) (n : Nat) :
    e.call? i n = none ∧ e ≠ .reset i (some n) := by
  cases e <;> simp_all [Event.quiet, Event.call?]

theorem Quiet.progress (h : Quiet g g') (i : PortIdx) : Progress i [] g g' := by
  obtain ⟨l, hl, hquiet⟩ := h.log
  exact .of_log (h.incarnation i) (h.field i _ fun _ _ => rfl)
    ⟨l, hl, fun e he n => Event.quiet_call (hquiet e he) i n⟩

theorem Taken.progress {k : PortIdx} {params : TcpTransmitParams} (h : Taken g k params g')
    (i : PortIdx) : Progress i [] g g' := by
  cases h with
  | @queued sem sem' hsem htake _ _ =>
      have htaken : Progress i [] g (g.setPort k { g.ports k with unackedSlots := some sem' }) :=
        .setPort rfl rfl (by
          simp [TcpPort.incarnation, hsem, (CountingSemaphore.take_some htake).1]) rfl
      exact htaken.trans (.of_log rfl rfl ⟨[.queued k sem.handle params], rfl,
        by simp [Event.call?]⟩)
  | full _ _ _ hquiet => exact hquiet.progress i
  | @lost sem sem' _ hsem htake _ hquiet =>
      have htaken : Progress i [] g (g.setPort k { g.ports k with unackedSlots := some sem' }) :=
        .setPort rfl rfl (by
          simp [TcpPort.incarnation, hsem, (CountingSemaphore.take_some htake).1]) rfl
      exact htaken.trans (hquiet.progress i)

theorem Enqueue.progress {B : Prop} {params : TcpTransmitParams} (h : Enqueue B g params g')
    (i : PortIdx) : Progress i [] g g' := by
  cases h with
  | unfound _ hquiet => exact hquiet.progress i
  | noSlot _ _ _ _ hquiet => exact hquiet.progress i
  | taken _ h => exact h.progress i

theorem Enqueue.state {B : Prop} {params : TcpTransmitParams} (h : Enqueue B g params g')
    (i : PortIdx) : (g'.ports i).state = (g.ports i).state := by
  obtain ⟨items, -, hsame⟩ := h.queues
  exact hsame.state i

/-- A call of `tcp_enqueue_reliable`, whether it returns or waits. -/
theorem tcpEnqueueReliable_final {params : TcpTransmitParams} {timeout : BitVec 32}
    (h : (tcpEnqueueReliable g params timeout).final? = some g') : Enqueue True g params g' := by
  cases hr : tcpEnqueueReliable g params timeout with
  | undefined => simp [hr, Outcome.final?] at h
  | done g₁ r =>
      rw [hr] at h
      obtain rfl := Option.some.inj h
      exact (tcpEnqueueReliable_done hr).mono fun _ => trivial
  | blocked g₁ on =>
      rw [hr] at h
      obtain rfl := Option.some.inj h
      obtain ⟨rfl, k, sem, hfind, hsem, hcount, -⟩ := tcpEnqueueReliable_blocked hr
      exact .noSlot hfind hsem hcount trivial (Quiet.refl _)

end Progress

/-! ### A segment that the port accepts -/

/-- Nothing is called, and the port keeps its state. -/
structure Steady (i : PortIdx) (g g' : Globals) : Prop where
  progress : Progress i [] g g'
  state : (g'.ports i).state = (g.ports i).state

/-- What the answer of port `i` to a segment does to its calls: they are those that its new state
    asks for, or the connection is over. -/
inductive Answer (i : PortIdx) (g g' : Globals) : Prop
  | calls (new : List Call) (h : Progress i new g g')
      (hcalled : (g.ports i).onConnect ≠ none →
        (g.ports i).state.called ++ new = (g'.ports i).state.called)
  | closed (hstate : (g.ports i).state = .lastAck) (hinc : (g'.ports i).incarnation = none)
      (hcalls : ∀ n, calls g'.log i n =
        calls g.log i n ++ if (g.ports i).incarnation = some n then [.disconnect] else [])
      (hresets : ∀ n, .reset i (some n) ∈ g'.log →
        .reset i (some n) ∈ g.log ∨ (g.ports i).incarnation = some n)

section Answer
variable {i : PortIdx} {g g' g'' : Globals} {seg : Segment}

theorem Steady.refl (i : PortIdx) (g : Globals) : Steady i g g := ⟨Progress.refl i g, rfl⟩

theorem Steady.trans (h : Steady i g g') (h' : Steady i g' g'') : Steady i g g'' :=
  ⟨h.progress.trans h'.progress, h'.state.trans h.state⟩

theorem Quiet.steady (h : Quiet g g') : Steady i g g' := ⟨h.progress i, h.state i⟩

/-- An answer from a state that the segment has left as it was. -/
theorem Answer.of_steady (hs : Steady i g g') (h : Answer i g' g'') : Answer i g g'' := by
  have hinc := hs.progress.incarnation
  cases h with
  | calls new h hcalled =>
      refine .calls new (by simpa using hs.progress.trans h) ?_
      intro hcb
      rw [← hs.state]
      exact hcalled (hs.progress.onConnect ▸ hcb)
  | closed hstate hnone hcalls hresets =>
      refine .closed (hs.state ▸ hstate) hnone (fun n => ?_) fun n hn => ?_
      · rw [hcalls n, hs.progress.calls n, hinc]
        simp
      · rw [← hinc]
        exact (hresets n hn).imp_left (hs.progress.resets n)

/-- The port gets a state in which it has called what it has called before. -/
theorem Answer.of_progress (h : Progress i [] g g')
    (hcalled : (g.ports i).state.called = (g'.ports i).state.called) : Answer i g g' :=
  .calls [] h fun _ => by simpa using hcalled

theorem Answer.warn (w : Warning) : Answer i g (g.warn w) :=
  .of_progress ((quiet_warn g w).progress i) rfl

theorem steady_ackUnacked (n : BitVec 32) (j : UnackedIdx) : Steady i g (ackUnacked i n j g) := by
  rw [ackUnacked_eq]
  split
  case isTrue =>
      have hreleased : Steady i g (g.setPort i ((g.ports i).released j)) :=
        ⟨.setPort rfl rfl (TcpPort.released_incarnation _ _) rfl, by simp [TcpPort.released,
          TcpPort.given]⟩
      refine hreleased.trans (.trans ?_ (releaseUnacked_spec g i j).steady)
      exact ⟨.of_log rfl rfl ⟨[_], rfl, by simp [Event.call?]⟩, rfl⟩
  case isFalse => exact Steady.refl i g

theorem steady_processAck (n : BitVec 32) : Steady i g (processAck g i n) := by
  unfold processAck
  split
  · exact forIdx_related (Steady.refl i) Steady.trans (fun j _ => steady_ackUnacked n j) g
  · exact Steady.refl i g

theorem steady_acknowledgeData (h : (acknowledgeData g i seg).final? = some g') :
    Steady i g g' := by
  have hadvanced : Steady i g (g.setPort i ((g.ports i).advanced seg)) :=
    ⟨.setPort rfl rfl rfl rfl, by simp [TcpPort.advanced]⟩
  rw [acknowledgeData_eq] at h
  split_ifs at h <;> obtain rfl := Option.some.inj h
  · exact hadvanced.trans ⟨.of_log rfl rfl ⟨[], by simp⟩, rfl⟩
  · exact hadvanced
  · exact Steady.refl i g

theorem answer_callOnConnect (hcalled : (g.ports i).state.called = []) :
    Answer i g (callOnConnect (g.setState i .established) i) := by
  have hset : Progress i [] g (g.setState i .established) := progress_setState _
  unfold callOnConnect
  split
  case h_1 f hf =>
      refine .calls [.connect] (hset.trans (.call (fun n => ?_) (by simp))) fun _ => ?_
      · simp [Event.call?]
      · rw [hcalled]
        simp [Globals.setState, TcpState.called]
  case h_2 hnone =>
      exact .calls [] hset fun hcb => absurd (by simpa [Globals.setState] using hnone) hcb

/-- `on_disconnect` is called at the end of an answer. -/
theorem progress_callOnDisconnect (h : (callOnDisconnect g i (g.ports i).incarnation).final? =
    some g') : Progress i [.disconnect] g g' ∧ g'.ports = g.ports := by
  unfold callOnDisconnect at h
  split at h
  · obtain rfl := Option.some.inj h
    exact ⟨.call (fun n => by simp [Event.call?]) (by simp), rfl⟩
  · cases h

theorem answer_enterTimeWait (hcalled : (g.ports i).state.called = [.connect])
    (h : (enterTimeWait g i).final? = some g') : Answer i g g' := by
  have hset : Progress i [] g
      (g.setPort i { g.ports i with state := .timeWait, enteredTimeWaitAt := g.tick }) :=
    .setPort rfl rfl rfl rfl
  have hinc := hset.incarnation
  unfold enterTimeWait at h
  simp only [← hinc] at h
  obtain ⟨hcall, hports⟩ := progress_callOnDisconnect h
  refine .calls [.disconnect] (hset.trans hcall) ?_
  intro _
  rw [hcalled, hports]
  simp [TcpState.called]

theorem answer_inputListen (hstate : (g.ports i).state = .listen)
    (h : (inputListen g i seg).final? = some g') : Answer i g g' := by
  unfold inputListen at h
  split_ifs at h
  · obtain rfl := Option.some.inj h
    exact .warn _
  · simp only [Globals.ports_setPort, Function.update_self] at h
    rw [Outcome.final?_ignore] at h
    have hset : Progress i [] g (g.setPort i ((g.ports i).takenOver seg)) :=
      .setPort rfl rfl rfl rfl
    have henq : Enqueue True (g.setPort i ((g.ports i).takenOver seg))
        (replyParams ((g.ports i).takenOver seg) seg.srcIpv4Addr (SYN + ACK)) g' :=
      tcpEnqueueReliable_final h
    refine .of_progress (hset.trans (henq.progress i)) ?_
    rw [henq.state i, hstate]
    simp [TcpPort.takenOver, TcpState.called]

theorem steady_deliverData : Steady i g (deliverData g i seg) := by
  unfold deliverData
  split
  · split
    · exact ⟨.of_log rfl rfl ⟨[_], rfl, by simp [Event.call?]⟩, rfl⟩
    · exact Steady.refl i g
  · exact Steady.refl i g

theorem answer_inputEstablished (hstate : (g.ports i).state = .established)
    (h : (inputEstablished g i seg).final? = some g') : Answer i g g' := by
  unfold inputEstablished at h
  split_ifs at h
  · cases hr : tcpEnqueueReliable g (replyParams (g.ports i) seg.srcIpv4Addr (FIN + ACK))
        portMaxDelay with
    | undefined => simp [hr, Outcome.bind, Outcome.final?] at h
    | blocked g₁ on =>
        have henq := tcpEnqueueReliable_final (by rw [hr]; rfl : _ = some g₁)
        rw [hr] at h
        obtain rfl := Option.some.inj h
        exact .of_progress (henq.progress i) (by rw [henq.state i])
    | done g₁ r =>
        have henq := tcpEnqueueReliable_final (by rw [hr]; rfl : _ = some g₁)
        rw [hr] at h
        obtain rfl := Option.some.inj h
        have hlast : Progress i [] g₁ (g₁.setState i .lastAck) := progress_setState _
        have hdeliver : Steady i (g₁.setState i .lastAck)
            (deliverData (g₁.setState i .lastAck) i seg) := steady_deliverData
        refine .of_progress ((henq.progress i).trans (hlast.trans hdeliver.progress)) ?_
        rw [hdeliver.state, hstate]
        simp [Globals.setState, TcpState.called]
  · obtain rfl := Option.some.inj h
    have hdeliver : Steady i g (deliverData g i seg) := steady_deliverData
    exact .of_progress hdeliver.progress (by rw [hdeliver.state])

/-- A reset calls nothing, and the port has no incarnation any more. -/
theorem Reset.calls {k : PortIdx} (h : Reset g k g') (i : PortIdx) (n : Nat) :
    calls g'.log i n = NetStack.Tcp.calls g.log i n ∧ (.reset i (some n) ∈ g'.log →
      .reset i (some n) ∈ g.log ∨ i = k ∧ (g.ports k).incarnation = some n) := by
  obtain ⟨g₁, ⟨l, hl, hquiet⟩, hlog⟩ := h.log
  have hgrown : g'.log = g.log ++ (l ++ [.reset k (g.ports k).incarnation]) := by
    rw [hlog, hl, List.append_assoc]
  have hnil : NetStack.Tcp.calls l i n = [] :=
    List.filterMap_eq_nil_iff.mpr fun e he => (Event.quiet_call (hquiet e he) i n).1
  rw [hgrown]
  constructor
  · rw [calls_append, calls_append, hnil]
    simp [NetStack.Tcp.calls, Event.call?]
  · intro hn
    rcases List.mem_append.mp hn with hn | hn
    · exact .inl hn
    · rcases List.mem_append.mp hn with hn | hn
      · exact absurd rfl (Event.quiet_call (hquiet _ hn) i n).2
      · obtain ⟨hi, hinc⟩ := Event.reset.inj (List.mem_singleton.mp hn)
        exact .inr ⟨hi, hinc.symm⟩

theorem Reset.incarnation {k : PortIdx} (h : Reset g k g') :
    (g'.ports k).incarnation = none := by
  obtain ⟨unacked, -, hports⟩ := h.ports
  simp [hports, TcpPort.incarnation]

theorem answer_inputLastAck (hstate : (g.ports i).state = .lastAck)
    (h : (inputLastAck g i seg).final? = some g') : Answer i g g' := by
  unfold inputLastAck at h
  split_ifs at h
  · obtain rfl := Option.some.inj h
    exact .warn _
  · obtain rfl := Option.some.inj h
    exact .warn _
  · have hreset := tcpResetPort_spec g i
    unfold callOnDisconnect at h
    split at h
    · obtain rfl := Option.some.inj h
      refine .closed hstate hreset.incarnation (fun n => ?_) fun n hn => ?_
      · rw [Globals.log_emit, calls_append, (hreset.calls i n).1]
        congr 1
        simp only [calls, List.filterMap_cons, Event.call?, true_and, List.filterMap_nil]
        split <;> simp_all
      · exact ((hreset.calls i n).2 (by simpa using hn)).imp_right fun h => h.2
    · cases h

/-- The case of the port's state answers the segment. -/
theorem answer_inputState (h : (inputState g i seg).final? = some g') : Answer i g g' := by
  unfold inputState at h
  split at h
  case h_1 hstate => exact answer_inputListen hstate h
  case h_2 hstate =>
      obtain rfl := Option.some.inj h
      unfold inputSynSent
      split_ifs
      · exact .warn _
      · exact .warn _
      · exact answer_callOnConnect (by rw [hstate]; rfl)
  case h_3 hstate =>
      obtain rfl := Option.some.inj h
      unfold inputSynReceived
      split_ifs
      · exact .warn _
      · exact .warn _
      · exact answer_callOnConnect (by rw [hstate]; rfl)
  case h_4 hstate => exact answer_inputEstablished hstate h
  case h_5 hstate => exact answer_inputLastAck hstate h
  case h_6 hstate =>
      unfold inputFinWait1 at h
      split_ifs at h
      · exact answer_enterTimeWait (by rw [hstate]; rfl) h
      · obtain rfl := Option.some.inj h
        exact .of_progress (Progress.refl i g) rfl
      · obtain rfl := Option.some.inj h
        refine .of_progress (progress_setState _) ?_
        rw [hstate]
        simp [Globals.setState, TcpState.called]
  case h_7 hstate =>
      unfold inputFinWait2 at h
      split_ifs at h
      · obtain rfl := Option.some.inj h
        exact .of_progress (Progress.refl i g) rfl
      · exact answer_enterTimeWait (by rw [hstate]; rfl) h
  all_goals
    obtain rfl := Option.some.inj h
    exact .of_progress (Progress.refl i g) rfl

theorem answer_acceptSegment (h : (acceptSegment g i seg).final? = some g') : Answer i g g' := by
  have hreleased : Steady i g (if seg.ack then processAck g i seg.header.ackNum else g) := by
    split
    · exact steady_processAck _
    · exact Steady.refl i g
  unfold acceptSegment at h
  simp only at h
  cases hr : acknowledgeData (if seg.ack then processAck g i seg.header.ackNum else g) i seg with
  | undefined => exact absurd hr acknowledgeData_defined
  | blocked g₁ on =>
      have hacked := steady_acknowledgeData (by rw [hr]; rfl : _ = some g₁)
      rw [hr] at h
      obtain rfl := Option.some.inj h
      have hsteady := hreleased.trans hacked
      exact .of_progress hsteady.progress (by rw [hsteady.state])
  | done g₁ u =>
      have hacked := steady_acknowledgeData (by rw [hr]; rfl : _ = some g₁)
      rw [hr] at h
      have hwindow : Quiet g₁ (windowed g₁ i seg) := quiet_setWindow g₁ i _
      exact .of_steady ((hreleased.trans hacked).trans hwindow.steady) (answer_inputState h)

/-- The answer of the port that accepts the segment of a step. -/
theorem Accepts.answer {s s' : System} {a : Action} (hacc : Accepts s a i seg)
    (h : step s a = some s') : Answer i s.g s'.g := by
  obtain ⟨⟨⟨env, rfl⟩, hin⟩, hverdict⟩ := hacc
  obtain ⟨hquiet, hports, -⟩ := selectInput_quiet (g := s.g) (by simp [hin])
  have hfinal := step_task_final h
  rw [tcpTaskIteration, hin] at hfinal
  simp only [executeInput, inputTcpInternal, checkSegment_congr hports, hverdict] at hfinal
  exact .of_steady hquiet.steady (answer_acceptSegment hfinal)

end Answer

/-! ### Other steps -/

/-- What an effect can do to the calls of port `i` in a step in which port `i` accepts no
    segment. -/
inductive CallFate (s : System) (a : Action) (i : PortIdx) (g g' : Globals) : Prop
  | kept (h : Progress i [] g g')
      (hcalled : (g'.ports i).state.called = (g.ports i).state.called)
  | reset (hwhy : ResetCause s a i) (hstate : (g.ports i).state = (s.g.ports i).state)
      (hnone : (g'.ports i).incarnation = none)
      (hcalls : ∀ n, calls g'.log i n = calls g.log i n)
      (hresets : ∀ n, .reset i (some n) ∈ g'.log →
        .reset i (some n) ∈ g.log ∨ (g.ports i).incarnation = some n)
  | created (hnew : (g'.ports i).incarnation = some g.nextAddr)
      (hnext : g.nextAddr < g'.nextAddr) (hcalls : ∀ n, calls g'.log i n = calls g.log i n)
      (hresets : ∀ n, .reset i (some n) ∈ g'.log → .reset i (some n) ∈ g.log)
      (hcalled : (g'.ports i).state.called = [])

section CallFate
variable {s s' : System} {a : Action} {i : PortIdx} {g g' g'' : Globals}

theorem Steady.callFate (h : Steady i g g') : CallFate s a i g g' :=
  .kept h.progress (by rw [h.state])

/-- A port changes; if it is port `i`, it keeps its incarnation, its callbacks and what it has
    called. -/
theorem CallFate.setPort {k : PortIdx} {p : TcpPort}
    (hports : g'.ports = Function.update g.ports k p)
    (hlog : ∃ l, g'.log = g.log ++ l ∧ ∀ e ∈ l, ∀ n, e.call? i n = none ∧ e ≠ .reset i (some n))
    (hself : i = k → p.incarnation = (g.ports k).incarnation ∧
      p.onConnect = (g.ports k).onConnect ∧ p.state.called = (g.ports k).state.called) :
    CallFate s a i g g' := by
  by_cases hi : i = k
  · obtain ⟨hinc, honConnect, hcalled⟩ := hself hi
    subst hi
    exact .kept (.of_log (by simpa [hports] using hinc) (by simpa [hports] using honConnect) hlog)
      (by simpa [hports] using hcalled)
  · have hsame : g'.ports i = g.ports i := by simp [hports, hi]
    exact .kept (.of_log (by rw [hsame]) (by rw [hsame]) hlog) (by rw [hsame])

/-- Nothing of what follows an effect concerns the port. -/
theorem CallFate.steady (h : CallFate s a i g g') (h' : Steady i g' g'')
    (hnext : g'.nextAddr ≤ g''.nextAddr) : CallFate s a i g g'' := by
  have hcalls : ∀ n, calls g''.log i n = calls g'.log i n := fun n => by
    simpa using h'.progress.calls n
  cases h with
  | kept h hcalled => exact .kept (h.trans h'.progress) (by rw [h'.state, hcalled])
  | reset hwhy hstate hnone hcalls' hresets =>
      exact .reset hwhy hstate (h'.progress.incarnation.trans hnone)
        (fun n => (hcalls n).trans (hcalls' n)) fun n hn => hresets n (h'.progress.resets n hn)
  | created hnew hlt hcalls' hresets hcalled =>
      exact .created (h'.progress.incarnation.trans hnew) (lt_of_lt_of_le hlt hnext)
        (fun n => (hcalls n).trans (hcalls' n)) (fun n hn => hresets n (h'.progress.resets n hn))
        (by rw [h'.state, hcalled])

theorem Enqueue.steady {B : Prop} {params : TcpTransmitParams} (h : Enqueue B g params g') :
    Steady i g g' := ⟨h.progress i, h.state i⟩

theorem Enqueue.nextAddr {B : Prop} {params : TcpTransmitParams} (h : Enqueue B g params g') :
    g.nextAddr ≤ g'.nextAddr := by
  obtain ⟨items, -, hsame⟩ := h.queues
  exact hsame.nextAddr

theorem Taken.state {k : PortIdx} {params : TcpTransmitParams} (h : Taken g k params g')
    (i : PortIdx) : (g'.ports i).state = (g.ports i).state := by
  have hset : ∀ sem', ((g.setPort k { g.ports k with unackedSlots := sem' }).ports i).state =
      (g.ports i).state := fun sem' => by
    by_cases hi : i = k
    · subst hi
      simp
    · simp [hi]
  cases h with
  | queued => exact hset _
  | full _ _ _ hquiet => exact hquiet.state i
  | lost _ _ _ hquiet => exact (hquiet.state i).trans (hset _)

theorem log_callOnConnect (g : Globals) {k : PortIdx} (hi : i ≠ k) :
    ∃ l, (callOnConnect g k).log = g.log ++ l ∧
      ∀ e ∈ l, ∀ n, e.call? i n = none ∧ e ≠ .reset i (some n) := by
  unfold callOnConnect
  split
  · exact ⟨[_], rfl, by simp [Event.call?, Ne.symm hi]⟩
  · exact ⟨[], by simp⟩

/-- Under the condition, an effect on a port that accepts no segment in the step. -/
theorem Effect.callFate (hnot : ∀ seg, ¬ Accepts s a i seg) (hc : callsPaired s a = true)
    (he : Effect s a s' g g') : CallFate s a i g g' := by
  have hother : ∀ {k seg}, Accepts s a k seg → i ≠ k := by
    rintro k seg hacc rfl
    exact hnot seg hacc
  have hnil : ∃ l, g.log = g.log ++ l ∧
      ∀ e ∈ l, ∀ n, e.call? i n = none ∧ e ≠ .reset i (some n) := ⟨[], by simp⟩
  cases he with
  | quiet hquiet => exact Steady.callFate hquiet.steady
  | appSend _ _ _ _ h => exact Steady.callFate h.steady
  | resumed _ _ _ _ h => exact Steady.callFate ⟨h.progress i, h.state i⟩
  | appWait | dropped => exact Steady.callFate ⟨.of_log rfl rfl hnil, rfl⟩
  | resumedStale | passed | retransmitted =>
      exact Steady.callFate ⟨.of_log rfl rfl ⟨[_], rfl, by simp [Event.call?]⟩, rfl⟩
  | strayGive =>
      exact .setPort rfl hnil fun _ => ⟨TcpPort.given_incarnation _, rfl, rfl⟩
  | recorded =>
      exact .setPort rfl ⟨[_], rfl, by simp [Event.call?]⟩ fun _ => ⟨rfl, rfl, rfl⟩
  | touched => exact .setPort rfl hnil fun _ => ⟨rfl, rfl, rfl⟩
  | gaveUp => exact .setPort rfl hnil fun _ => ⟨TcpPort.released_incarnation _ _, rfl, rfl⟩
  | released hacc =>
      exact .setPort rfl ⟨[_], rfl, by simp [Event.call?]⟩ fun hi => absurd hi (hother hacc)
  | acknowledged hacc | ackStuck hacc | finWait2 hacc | timeWait hacc =>
      exact .setPort rfl hnil fun hi => absurd hi (hother hacc)
  | delivered hacc =>
      exact Steady.callFate ⟨.of_log rfl rfl ⟨[_], rfl, by simp [Event.call?]⟩, rfl⟩
  | disconnected hacc =>
      have hi := Ne.symm (hother hacc)
      exact Steady.callFate ⟨.of_log rfl rfl ⟨[_], rfl, by simp [Event.call?, hi]⟩, rfl⟩
  | @tookOver _ k seg hacc _ _ _ _ h =>
      have hset : CallFate s a i g (g.setPort k ((g.ports k).takenOver seg)) :=
        .setPort rfl hnil fun hi => absurd hi (hother hacc)
      exact hset.steady h.steady h.nextAddr
  | @established k seg hacc =>
      have hi := hother hacc
      exact .setPort (ports_callOnConnect (g.setState k .established) k)
        (log_callOnConnect (g.setState k .established) hi) fun h => absurd h hi
  | @finReplied g₁ k seg hacc _ _ _ h =>
      have hi := hother hacc
      have hset : Steady i g₁ (g₁.setState k .lastAck) :=
        ⟨progress_setState _, by simp [Globals.setState, hi]⟩
      exact Steady.callFate (h.steady.trans hset)
  | @reset _ k hwhy hsettled _ _ h =>
      by_cases hi : i = k
      · subst hi
        exact .reset hwhy (TcpPort.state_of_settled hsettled) h.incarnation
          (fun n => (h.calls i n).1) fun n hn => ((h.calls i n).2 hn).imp_right fun h => h.2
      · obtain ⟨unacked, -, hports⟩ := h.ports
        have hsame : g'.ports i = g.ports i := by simp [hports, hi]
        refine .kept ⟨by rw [hsame], by rw [hsame], fun n => by simp [(h.calls i n).1],
          fun n hn => ?_⟩ (by rw [hsame])
        exact ((h.calls i n).2 hn).resolve_right fun h => hi h.1
  | @closing _ self other addr k hcmd hstage hfind h =>
      have hset : CallFate s a i g (g.setState k .finWait1) := by
        refine .setPort rfl hnil fun hi => ⟨rfl, rfl, ?_⟩
        obtain ⟨⟨env, rfl⟩, hin⟩ := hcmd
        have hconnected : (s.g.ports k).state.called = [.connect] := by
          simpa [callsPaired, hin, hfind] using hc
        rw [hstage.state k, hconnected]
        rfl
      exact hset.steady h.steady h.nextAddr
  | @listening self onReceive onConnect onDisconnect k hcmd hstage hunused =>
      by_cases hi : i = k
      · subst hi
        refine .created ?_ (Nat.lt_succ_self _) (fun _ => rfl) (fun _ hn => hn) ?_
        · simp [newPort, TcpPort.incarnation, CountingSemaphore.create]
        · simp [TcpState.called]
      · exact .setPort rfl hnil fun h => absurd h hi
  | @connecting _ self other addr onReceive onConnect onDisconnect k hcmd hstage hunused h =>
      have hset : CallFate s a i g (Globals.setPort { g with nextAddr := g.nextAddr + 1 } k
          (connectingPort (newPort self g.nextAddr onReceive onConnect onDisconnect) other
            addr)) := by
        by_cases hi : i = k
        · subst hi
          refine .created ?_ (Nat.lt_succ_self _) (fun _ => rfl) (fun _ hn => hn) ?_
          · simp [connectingPort, newPort, TcpPort.incarnation, CountingSemaphore.create]
          · simp [connectingPort, TcpState.called]
        · exact .setPort rfl hnil fun h => absurd h hi
      exact hset.steady h.steady h.nextAddr

end CallFate

/-! ### The pairing -/

/-- The calls of the live incarnation of slot `i` are those that its state asks for, and what
    the history says of slot `i` is about handles that have been used. -/
structure Paired (i : PortIdx) (g : Globals) : Prop where
  fresh : ∀ n, (g.ports i).incarnation = some n ∨ calls g.log i n ≠ [] ∨
    .reset i (some n) ∈ g.log → n < g.nextAddr
  live : ∀ n, (g.ports i).incarnation = some n → (g.ports i).onConnect ≠ none →
    calls g.log i n = (g.ports i).state.called ∧ .reset i (some n) ∉ g.log

/-- Incarnation `n` of slot `i`, live or not, has been told of its connection in order, and of
    its end if it has been reset. -/
structure PairedFrom (i : PortIdx) (n : Nat) (g : Globals) : Prop where
  paired : Paired i g
  born : n < g.nextAddr
  callbacks : (g.ports i).incarnation = some n → (g.ports i).onConnect ≠ none
  ordered : calls g.log i n <+: [.connect, .disconnect]
  reset : .reset i (some n) ∈ g.log → calls g.log i n ≠ [.connect]

theorem TcpState.called_ordered (state : TcpState) :
    state.called <+: [.connect, .disconnect] := by
  cases state <;> decide

section Paired
variable {s s' : System} {a : Action} {i : PortIdx} {n : Nat} {g g' : Globals}

theorem Paired.callFate (hp : Paired i g) (h : CallFate s a i g g')
    (hnext : g.nextAddr ≤ g'.nextAddr) : Paired i g' := by
  cases h with
  | kept h hcalled =>
      have hcalls : ∀ n, calls g'.log i n = calls g.log i n := fun n => by simpa using h.calls n
      constructor
      · intro n hn
        rw [h.incarnation, hcalls n] at hn
        exact lt_of_lt_of_le (hp.fresh n (hn.imp_right (.imp_right (h.resets n)))) hnext
      · intro n hn honConnect
        rw [h.incarnation] at hn
        rw [h.onConnect] at honConnect
        obtain ⟨hlive, hreset⟩ := hp.live n hn honConnect
        rw [hcalls n, hcalled]
        exact ⟨hlive, fun hmem => hreset (h.resets n hmem)⟩
  | reset _ _ hnone hcalls hresets =>
      refine ⟨fun n hn => ?_, fun n hn => by simp [hnone] at hn⟩
      rw [hcalls n] at hn
      rcases hn with hn | hn | hn
      · simp [hnone] at hn
      · exact lt_of_lt_of_le (hp.fresh n (.inr (.inl hn))) hnext
      · rcases hresets n hn with hn | hn
        · exact lt_of_lt_of_le (hp.fresh n (.inr (.inr hn))) hnext
        · exact lt_of_lt_of_le (hp.fresh n (.inl hn)) hnext
  | created hnew hlt hcalls hresets hcalled =>
      constructor
      · intro n hn
        rw [hcalls n] at hn
        rcases hn with hn | hn | hn
        · obtain rfl := Option.some.inj (hnew.symm.trans hn)
          exact hlt
        · exact lt_of_lt_of_le (hp.fresh n (.inr (.inl hn))) hnext
        · exact lt_of_lt_of_le (hp.fresh n (.inr (.inr (hresets n hn)))) hnext
      · intro n hn _
        -- the new handle has not been used before
        obtain rfl := Option.some.inj (hnew.symm.trans hn)
        have hunused := (hp.fresh g.nextAddr).mt (lt_irrefl _)
        simp only [not_or, ne_eq, not_not] at hunused
        rw [hcalls, hunused.2.1, hcalled]
        exact ⟨rfl, fun hmem => hunused.2.2 (hresets _ hmem)⟩

theorem Paired.answer (hp : Paired i g) (h : Answer i g g') (hnext : g.nextAddr ≤ g'.nextAddr) :
    Paired i g' := by
  cases h with
  | calls new h hcalled =>
      refine ⟨fun n hn => lt_of_lt_of_le (hp.fresh n ?_) hnext, fun n hn honConnect => ?_⟩
      · rcases hn with hn | hn | hn
        · exact .inl (h.incarnation ▸ hn)
        · by_cases hinc : (g.ports i).incarnation = some n
          · exact .inl hinc
          · rw [h.calls n, if_neg hinc, List.append_nil] at hn
            exact .inr (.inl hn)
        · exact .inr (.inr (h.resets n hn))
      · rw [h.incarnation] at hn
        rw [h.onConnect] at honConnect
        obtain ⟨hlive, hreset⟩ := hp.live n hn honConnect
        rw [h.calls n, if_pos hn, hlive, hcalled honConnect]
        exact ⟨rfl, fun hmem => hreset (h.resets n hmem)⟩
  | closed hstate hnone hcalls hresets =>
      refine ⟨fun n hn => lt_of_lt_of_le (hp.fresh n ?_) hnext, fun n hn => by simp [hnone] at hn⟩
      by_cases hinc : (g.ports i).incarnation = some n
      · exact .inl hinc
      · rw [hnone, hcalls n, if_neg hinc, List.append_nil] at hn
        rcases hn with hn | hn | hn
        · cases hn
        · exact .inr (.inl hn)
        · exact .inr (.inr ((hresets n hn).resolve_right hinc))

theorem PairedFrom.callFate (hp : PairedFrom i n g) (hnot : ∀ seg, ¬ Accepts s a i seg)
    (hc : callsPaired s a = true) (h : CallFate s a i g g') (hnext : g.nextAddr ≤ g'.nextAddr) :
    PairedFrom i n g' := by
  refine ⟨hp.paired.callFate h hnext, lt_of_lt_of_le hp.born hnext, ?_, ?_, ?_⟩
  · intro hn
    cases h with
    | kept h _ =>
        rw [h.onConnect]
        exact hp.callbacks (h.incarnation ▸ hn)
    | reset _ _ hnone => simp [hnone] at hn
    | created hnew =>
        obtain rfl := Option.some.inj (hnew.symm.trans hn)
        exact absurd hp.born (lt_irrefl _)
  · cases h with
    | kept h _ => simpa [h.calls n] using hp.ordered
    | reset _ _ _ hcalls _ | created _ _ hcalls _ _ => simpa [hcalls n] using hp.ordered
  · intro hmem
    cases h with
    | kept h _ => simpa [h.calls n] using hp.reset (h.resets n hmem)
    | created _ _ hcalls hresets _ => simpa [hcalls n] using hp.reset (hresets n hmem)
    | reset hwhy hstate _ hcalls hresets =>
        rw [hcalls n]
        rcases hresets n hmem with hbefore | hinc
        · exact hp.reset hbefore
        · rw [(hp.paired.live n hinc (hp.callbacks hinc)).1, hstate]
          cases hwhy with
          | lastAck seg hacc => exact absurd hacc (hnot seg)
          | timeWait _ hover =>
              simp only [timeWaitOver, Bool.and_eq_true, beq_iff_eq] at hover
              rw [hover.1]
              decide
          | rst seg hrst hverdict =>
              obtain ⟨⟨env, rfl⟩, hin⟩ := hrst
              simpa [callsPaired, hin, hverdict] using hc

theorem PairedFrom.answer (hp : PairedFrom i n g) (h : Answer i g g')
    (hnext : g.nextAddr ≤ g'.nextAddr) : PairedFrom i n g' := by
  refine ⟨hp.paired.answer h hnext, lt_of_lt_of_le hp.born hnext, ?_, ?_, ?_⟩ <;>
    by_cases hinc : (g.ports i).incarnation = some n
  · intro hn
    cases h with
    | calls new h _ =>
        rw [h.onConnect]
        exact hp.callbacks hinc
    | closed _ hnone => simp [hnone] at hn
  · intro hn
    cases h with
    | calls new h _ => exact absurd (h.incarnation ▸ hn) hinc
    | closed _ hnone => simp [hnone] at hn
  · have hlive := (hp.paired.live n hinc (hp.callbacks hinc)).1
    cases h with
    | calls new h hcalled =>
        rw [h.calls n, if_pos hinc, hlive, hcalled (hp.callbacks hinc)]
        exact TcpState.called_ordered _
    | closed hstate _ hcalls _ =>
        rw [hcalls n, if_pos hinc, hlive, hstate]
        decide
  · cases h with
    | calls new h _ => simpa [h.calls n, hinc] using hp.ordered
    | closed _ _ hcalls _ => simpa [hcalls n, hinc] using hp.ordered
  · intro hmem
    have hlive := hp.paired.live n hinc (hp.callbacks hinc)
    cases h with
    | calls new h _ => exact absurd (h.resets n hmem) hlive.2
    | closed hstate _ hcalls _ =>
        rw [hcalls n, if_pos hinc, hlive.1, hstate]
        decide
  · intro hmem
    cases h with
    | calls new h _ => simpa [h.calls n, hinc] using hp.reset (h.resets n hmem)
    | closed _ _ hcalls hresets =>
        simpa [hcalls n, hinc] using hp.reset ((hresets n hmem).resolve_right hinc)

theorem step_nextAddr (h : step s a = some s') : s.g.nextAddr ≤ s'.g.nextAddr :=
  step_preserves (P := fun g => s.g.nextAddr ≤ g.nextAddr)
    (fun _ _ he hle => hle.trans he.nextAddr) h le_rfl

/-- A step keeps what its effects keep when port `i` accepts no segment, and what its answer
    keeps when it does. -/
theorem step_calls {P : Globals → Prop} (h : step s a = some s') (hs : P s.g)
    (hanswer : Answer i s.g s'.g → s.g.nextAddr ≤ s'.g.nextAddr → P s.g → P s'.g)
    (hfate : (∀ seg, ¬ Accepts s a i seg) → ∀ g g', CallFate s a i g g' →
      g.nextAddr ≤ g'.nextAddr → P g → P g') (hc : callsPaired s a = true) : P s'.g := by
  by_cases hacc : ∃ seg, Accepts s a i seg
  · obtain ⟨seg, hacc⟩ := hacc
    exact hanswer (hacc.answer h) (step_nextAddr h) hs
  · have hnot := not_exists.mp hacc
    exact step_preserves
      (fun g g' he hg => hfate hnot g g' (he.callFate hnot hc) he.nextAddr hg) h hs

end Paired

theorem paired_boot (net : NetContext) (i : PortIdx) : Paired i (boot net).g :=
  ⟨by simp [boot, TcpPort.incarnation, calls], by simp [boot, TcpPort.incarnation]⟩

/-- As long as the condition holds, an incarnation with callbacks is told of its connection
    once, then of its end once, and it is not reset between the two. -/
theorem callbacks_paired {net : NetContext} {as bs : List Action} {s₁ s : System} {i : PortIdx}
    {n : Nat} (hrun₁ : run step (boot net) as = some s₁)
    (hinc : (s₁.g.ports i).incarnation = some n) (honConnect : (s₁.g.ports i).onConnect ≠ none)
    (hrun : run step s₁ bs = some s)
    (hg : Guarded step (fun s a => callsPaired s a = true) (boot net) (as ++ bs)) :
    calls s.g.log i n <+: [.connect, .disconnect] ∧
      (.reset i (some n) ∈ s.g.log → calls s.g.log i n ≠ [] →
        calls s.g.log i n = [.connect, .disconnect]) := by
  rw [guarded_append hrun₁] at hg
  have hpaired : Paired i s₁.g :=
    run_invariant (P := fun s => Paired i s.g)
      (fun s a s' hs hc hstep => step_calls hstep hs (fun h hnext hp => hp.answer h hnext)
        (fun _ _ _ h hnext hp => hp.callFate h hnext) hc)
      (paired_boot net i) hg.1 hrun₁
  have hlive := hpaired.live n hinc honConnect
  have hstart : PairedFrom i n s₁.g := by
    refine ⟨hpaired, hpaired.fresh n (.inl hinc), fun _ => honConnect, ?_, ?_⟩
    · rw [hlive.1]
      exact TcpState.called_ordered _
    · intro hmem
      exact absurd hmem hlive.2
  have hend : PairedFrom i n s.g :=
    run_invariant (P := fun s => PairedFrom i n s.g)
      (fun s a s' hs hc hstep => step_calls hstep hs (fun h hnext hp => hp.answer h hnext)
        (fun hnot _ _ h hnext hp => hp.callFate hnot hc h hnext) hc) hstart hg.2 hrun
  refine ⟨hend.ordered, ?_⟩
  intro hmem hne
  have hshort := hend.reset hmem
  obtain ⟨rest, hrest⟩ := hend.ordered
  cases hcalls : calls s.g.log i n with
  | nil => exact absurd hcalls hne
  | cons c cs =>
      rw [hcalls] at hrest hshort
      cases cs with
      | nil => simp_all
      | cons d ds => simp_all

/-- The peer of the handshake closes the connection. -/
def peerCloses : List Action :=
  [arrives peerNet.ip 5000 80 1 1 (FIN + ACK) [], iterates, iterates, iterates,
    arrives peerNet.ip 5000 80 2 2 ACK [], iterates]

/-- The peer of the handshake resets the connection. -/
def peerResets : List Action := [arrives peerNet.ip 5000 80 1 1 0b100 [], iterates]

/-- The history says that port 0 has been reset in incarnation `n`. -/
def wasReset (s : System) (n : Nat) : Bool :=
  s.g.log.any fun e =>
    match e with
    | .reset i m => i == 0 && m == some n
    | _ => false

theorem reset_of_wasReset {s : System} {n : Nat} (h : wasReset s n = true) :
    .reset 0 (some n) ∈ s.g.log := by
  obtain ⟨e, he, hfields⟩ := List.any_eq_true.mp h
  cases e with
  | reset i m =>
      simp only [Bool.and_eq_true, beq_iff_eq] at hfields
      obtain ⟨rfl, rfl⟩ := hfields
      exact he
  | _ => cases hfields

/-- After the handshake the application is told of the connection, and of its end when the peer
    closes it. -/
theorem peer_close_calls_both :
    ∃ s₁ s n, run step (boot hostNet) (handshake peerNet.ip) = some s₁ ∧
      (s₁.g.ports 0).incarnation = some n ∧ run step s₁ peerCloses = some s ∧
      .reset 0 (some n) ∈ s.g.log ∧ calls s.g.log 0 n = [.connect, .disconnect] := by
  obtain ⟨s₁, hs₁, hend⟩ := run_any
    (show (run step (boot hostNet) (handshake peerNet.ip)).any (fun s₁ =>
      (s₁.g.ports 0).onConnect.isSome && (s₁.g.ports 0).incarnation.any fun n =>
        (run step s₁ peerCloses).any fun s => wasReset s n && calls s.g.log 0 n != []) = true by
      decide +kernel)
  simp only [Bool.and_eq_true, Option.isSome_iff_ne_none, Option.any_eq_true, bne_iff_ne] at hend
  obtain ⟨honConnect, n, hinc, s, hs, hreset, hcalled⟩ := hend
  have hpaired := callbacks_paired hs₁ hinc honConnect hs (by decide +kernel)
  have hmem := reset_of_wasReset hreset
  exact ⟨s₁, s, n, hs₁, hinc, hs, hmem, hpaired.2 hmem hcalled⟩

/-- When the peer resets the connection the application is never told of its end. -/
theorem peer_reset_calls_connect_only :
    ∃ s₁ s n, run step (boot hostNet) (handshake peerNet.ip) = some s₁ ∧
      (s₁.g.ports 0).incarnation = some n ∧ (s₁.g.ports 0).onConnect ≠ none ∧
      (s₁.g.ports 0).onDisconnect ≠ none ∧ run step s₁ peerResets = some s ∧
      .reset 0 (some n) ∈ s.g.log ∧ calls s.g.log 0 n = [.connect] := by
  obtain ⟨s₁, hs₁, hend⟩ := run_any
    (show (run step (boot hostNet) (handshake peerNet.ip)).any (fun s₁ =>
      ((s₁.g.ports 0).onConnect.isSome && (s₁.g.ports 0).onDisconnect.isSome) &&
        (s₁.g.ports 0).incarnation.any fun n => (run step s₁ peerResets).any fun s =>
          wasReset s n && calls s.g.log 0 n == [.connect]) = true by decide +kernel)
  simp only [Bool.and_eq_true, Option.isSome_iff_ne_none, Option.any_eq_true, beq_iff_eq] at hend
  obtain ⟨⟨honConnect, honDisconnect⟩, n, hinc, s, hs, hreset, hcalled⟩ := hend
  exact ⟨s₁, s, n, hs₁, hinc, honConnect, honDisconnect, hs, reset_of_wasReset hreset, hcalled⟩

end NetStack.Tcp
