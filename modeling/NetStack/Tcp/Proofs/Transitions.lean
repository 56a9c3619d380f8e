import NetStack.Tcp.Proofs.Moves

/-!
# Transitions of ports and what a step logs

`Transition` is the state machine of a port: every change of a port's state in a step is one
of its transitions, taken for the reason it names. `Logs` does the same for the history.
-/

namespace NetStack.Tcp
open NetStack.Lib

/-- The segment takes port `i` to `ESTABLISHED`. -/
structure Establishes (s : System) (a : Action) (i : PortIdx) (seg : Segment) : Prop where
  accepts : Accepts s a i seg
  state : (s.g.ports i).state = .synSent ∧ seg.syn = true ∨
    (s.g.ports i).state = .synReceived ∧ seg.header.ackNum = (s.g.ports i).seqNum
  ack : seg.ack = true

/-- Why the step gives port `i` a new state. -/
inductive Transition (s : System) (a : Action) (i : PortIdx) : TcpState → Prop
  | reset (hwhy : ResetCause s a i) : Transition s a i .closed
  | takeOver {seg : Segment} (hacc : Accepts s a i seg)
      (hstate : (s.g.ports i).state = .listen) (hsyn : seg.syn = true) :
      Transition s a i .synReceived
  | establish {seg : Segment} (h : Establishes s a i seg) : Transition s a i .established
  | finReply {seg : Segment} (hacc : Accepts s a i seg)
      (hstate : (s.g.ports i).state = .established) (hfin : seg.fin = true) :
      Transition s a i .lastAck
  | finWait2 {seg : Segment} (hacc : Accepts s a i seg)
      (hstate : (s.g.ports i).state = .finWait1) (hfin : seg.fin = false)
      (hack : seg.ack = true) : Transition s a i .finWait2
  | timeWait {seg : Segment} (hacc : Accepts s a i seg)
      (hstate : (s.g.ports i).state = .finWait1 ∨ (s.g.ports i).state = .finWait2) :
      Transition s a i .timeWait
  | close {self other : BitVec 16} {addr : Ipv4Addr}
      (hcmd : Processes s a (.cmd (.close self other addr)))
      (hfind : findPort s.g self other addr = some i) : Transition s a i .finWait1
  | listen {self : BitVec 16} {onReceive onConnect onDisconnect : Option FnPtr}
      (hcmd : Processes s a (.cmd (.createAndListen self onReceive onConnect onDisconnect)))
      (hunused : findUnusedPort s.g = some i) : Transition s a i .listen
  | connect {self other : BitVec 16} {addr : Ipv4Addr}
      {onReceive onConnect onDisconnect : Option FnPtr}
      (hcmd : Processes s a
        (.cmd (.createAndConnect self other addr onReceive onConnect onDisconnect)))
      (hunused : findUnusedPort s.g = some i) : Transition s a i .synSent

/-- Port `k` gets a new port, whose state is the one a transition leads to. -/
theorem state_setPort {s : System} {a : Action} {g : Globals} {k : PortIdx} {p : TcpPort}
    (h : Transition s a k p.state) (i : PortIdx) :
    ((g.setPort k p).ports i).state = (g.ports i).state ∨
      Transition s a i ((g.setPort k p).ports i).state := by
  by_cases hi : i = k
  · subst hi
    exact .inr (by simpa using h)
  · exact .inl (by simp [hi])

/-- A move changes the state of a port by a transition only. -/
theorem Move.state {s s' : System} {a : Action} {g g' : Globals} (hm : Move s a s' g g')
    (i : PortIdx) :
    (g'.ports i).state = (g.ports i).state ∨ Transition s a i (g'.ports i).state := by
  cases hm with
  | stay | wait | push | drop | pass | resend => exact .inl rfl
  | @record _ _ _ k =>
      by_cases hi : i = k
      · subst hi
        exact .inl (by simp [recordUnacked])
      · exact .inl (by simp [hi])
  | reset hwhy _ => exact state_setPort (.reset hwhy) i
  | takeOver hacc _ hstate hsyn _ => exact state_setPort (.takeOver hacc hstate hsyn) i
  | establish hacc _ hfrom hack => exact state_setPort (.establish ⟨hacc, hfrom, hack⟩) i
  | finReply hacc _ hstate hfin _ => exact state_setPort (.finReply hacc hstate hfin) i
  | finWait2 hacc _ hstate hfin hack => exact state_setPort (.finWait2 hacc hstate hfin hack) i
  | timeWait hacc _ hstate => exact state_setPort (.timeWait hacc hstate) i
  | close hcmd _ hfind _ => exact state_setPort (.close hcmd hfind) i
  | listen hcmd _ hunused =>
      exact state_setPort (p := { newPort _ _ _ _ _ with state := .listen })
        (.listen hcmd hunused) i
  | connect hcmd _ hunused hport _ =>
      subst hport
      exact state_setPort (p := connectingPort _ _ _) (.connect hcmd hunused) i

/-- Every change of a port's state in a step is a transition of the state machine. -/
theorem step_state {s s' : System} {a : Action} (h : step s a = some s') (i : PortIdx) :
    (s'.g.ports i).state = (s.g.ports i).state ∨ Transition s a i (s'.g.ports i).state :=
  step_moves (P := fun g =>
      (g.ports i).state = (s.g.ports i).state ∨ Transition s a i (g.ports i).state)
    (fun hsame hP => by rwa [hsame.state i])
    (fun g g' hm hP => by
      rcases hm.state i with hsame | htransition
      · rwa [hsame]
      · exact .inr htransition) h (.inl rfl)

/-- What an effect of a step logs. -/
inductive Logs (s : System) (a : Action) : Event → Prop
  | quiet {e : Event} (h : e.quiet = true) : Logs s a e
  | queued (slot : PortIdx) (incarnation : Nat) (params : TcpTransmitParams) :
      Logs s a (.queued slot incarnation params)
  | transmit (t : Transmission) : Logs s a (.transmit t)
  | acked (slot : PortIdx) (incarnation : Option Nat) (entry : TcpUnacked) :
      Logs s a (.acked slot incarnation entry)
  | reset (slot : PortIdx) (incarnation : Option Nat) : Logs s a (.reset slot incarnation)
  | onReceive {i : PortIdx} {seg : Segment} (hacc : Accepts s a i seg)
      (hstate : (s.g.ports i).state = .established) :
      Logs s a (.onReceive i (s.g.ports i).incarnation seg.buffer seg.header.headerLength
        seg.dataLength)
  | onConnect {i : PortIdx} {seg : Segment} (incarnation : Option Nat)
      (h : Establishes s a i seg) : Logs s a (.onConnect i incarnation)
  | onDisconnect {i : PortIdx} {seg : Segment} (hacc : Accepts s a i seg)
      (hstate : (s.g.ports i).state.disconnects = true) :
      Logs s a (.onDisconnect i (s.g.ports i).incarnation)

/-- The log has grown by what effects of the step log. -/
def LogGrows (s : System) (a : Action) (g g' : Globals) : Prop :=
  ∃ l, g'.log = g.log ++ l ∧ ∀ e ∈ l, Logs s a e

section Logs
variable {s : System} {a : Action}

theorem LogGrows.of_eq {g g' : Globals} (h : g'.log = g.log) : LogGrows s a g g' :=
  ⟨[], by simp [h]⟩

theorem LogGrows.emit {g g' : Globals} {e : Event} (h : g'.log = g.log ++ [e])
    (he : Logs s a e) : LogGrows s a g g' :=
  ⟨[e], h, fun _ h => (List.mem_singleton.mp h) ▸ he⟩

theorem LogGrows.trans {g g' g'' : Globals} (h : LogGrows s a g g') (h' : LogGrows s a g' g'') :
    LogGrows s a g g'' := by
  obtain ⟨l, hl, hlogs⟩ := h
  obtain ⟨l', hl', hlogs'⟩ := h'
  refine ⟨l ++ l', by rw [hl', hl, List.append_assoc], ?_⟩
  intro e he
  exact (List.mem_append.mp he).elim (hlogs e) (hlogs' e)

theorem LogQuiet.grows {g g' : Globals} (h : LogQuiet g g') : LogGrows s a g g' := by
  obtain ⟨l, hl, hquiet⟩ := h
  exact ⟨l, hl, fun e he => .quiet (hquiet e he)⟩

theorem Taken.logGrows {g g' : Globals} {i : PortIdx} {params : TcpTransmitParams}
    (h : Taken g i params g') : LogGrows s a g g' := by
  cases h with
  | queued hsem htake hopen hroom => exact .emit rfl (.queued _ _ _)
  | full _ _ _ hquiet => exact hquiet.log.grows
  | lost _ _ _ hquiet => exact LogQuiet.grows (LogQuiet.trans (.of_eq rfl) hquiet.log)

theorem Enqueue.logGrows {B : Prop} {g g' : Globals} {params : TcpTransmitParams}
    (h : Enqueue B g params g') : LogGrows s a g g' := by
  cases h with
  | unfound _ hquiet => exact hquiet.log.grows
  | noSlot _ _ _ _ hquiet => exact hquiet.log.grows
  | taken _ h => exact h.logGrows

theorem Effect.logGrows {s' : System} {g g' : Globals} (he : Effect s a s' g g') :
    LogGrows s a g g' := by
  cases he with
  | quiet hquiet => exact hquiet.log.grows
  | appSend _ _ _ _ h => exact h.logGrows
  | resumed _ _ _ _ h => exact h.logGrows
  | resumedStale => exact .emit rfl (.queued _ _ _)
  | passed | recorded | retransmitted => exact .emit rfl (.transmit _)
  | reset _ _ _ _ h =>
      obtain ⟨g₁, hquiet, hlog⟩ := h.log
      exact hquiet.grows.trans (.emit hlog (.reset _ _))
  | released => exact .emit rfl (.acked _ _ _)
  | tookOver _ _ _ _ _ h => exact .trans (.of_eq (by rfl)) h.logGrows
  | @established i seg hacc hstage hfrom hack =>
      unfold callOnConnect
      split
      · exact .emit rfl (.onConnect _ ⟨hacc, hfrom, hack⟩)
      · exact .of_eq rfl
  | delivered hacc hstate hinc _ => exact .emit rfl (hinc ▸ .onReceive hacc hstate)
  | disconnected hacc hstate => exact .emit rfl (.onDisconnect hacc hstate)
  | finReplied _ _ _ _ h => exact h.logGrows.trans (.of_eq rfl)
  | closing _ _ _ h => exact .trans (.of_eq (by rfl)) h.logGrows
  | connecting _ _ _ h => exact .trans (.of_eq (by rfl)) h.logGrows
  | appWait | strayGive | dropped | touched | gaveUp | acknowledged | ackStuck | finWait2
  | timeWait | listening => exact .of_eq rfl

/-- The log of a step is the log before it and what its effects log. -/
theorem step_logGrows {s' : System} (h : step s a = some s') : LogGrows s a s.g s'.g :=
  step_preserves (P := fun g => LogGrows s a s.g g) (fun _ _ he hs => hs.trans he.logGrows) h
    (.of_eq rfl)

end Logs

/-- The incarnation of port `i` has handed a segment with the flag and the sequence number to
    IPv4. -/
def Transmitted (g : Globals) (i : PortIdx) (flag : BitVec 8 → Bool) (seqNum : BitVec 32) :
    Prop :=
  ∃ t ∈ transmissions g.log, t.slot = i ∧ t.incarnation = (g.ports i).incarnation ∧
    flag t.params.control = true ∧ t.seqNum = seqNum

theorem Transmitted.mono {g g' : Globals} {i : PortIdx} {flag : BitVec 8 → Bool}
    {seqNum : BitVec 32} (h : Transmitted g i flag seqNum)
    (hinc : (g'.ports i).incarnation = (g.ports i).incarnation)
    (hlog : transmissions g.log ⊆ transmissions g'.log) : Transmitted g' i flag seqNum := by
  obtain ⟨t, ht, hslot, hincarnation, hflag, hseq⟩ := h
  exact ⟨t, hlog ht, hslot, hincarnation.trans hinc.symm, hflag, hseq⟩

/-- The segment that port `i` accepts in the step acknowledges exactly a segment with the flag
    that the port's incarnation has handed to IPv4. -/
def AcknowledgesFlag (s : System) (a : Action) (i : PortIdx) (flag : BitVec 8 → Bool) : Prop :=
  ∃ seg seqNum, Accepts s a i seg ∧ seg.ack = true ∧ Transmitted s.g i flag seqNum ∧
    seg.header.ackNum = seqNum + 1

end NetStack.Tcp
