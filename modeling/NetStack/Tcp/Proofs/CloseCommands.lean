import NetStack.Tcp.Proofs.Datagram
import NetStack.Tcp.Proofs.Moves

/-!
# What a close command does in each state

`tcp_close_port_internal` does not look at the state of the port it finds: it moves the port to
`FIN_WAIT_1` and queues a FIN, whatever the port was doing. So a command closes its port as it
should in the two states that this is right for, given a slot and a place for the FIN. A port
that is closing already is left alone only when its second FIN finds no place in `send_queue`.
-/

namespace NetStack.Tcp
open NetStack.Lib

/-- What a close command is to do to port `i`: close a connection with a FIN, give up a port
    that has no connection yet, and leave one alone that is closing or closed. -/
def Closes (g : Globals) (i : PortIdx) (addr : Ipv4Addr) (g' : Globals) : Prop :=
  match (g.ports i).state with
  | .established | .synReceived =>
      (g'.ports i).state = .finWait1 ∧ g'.sendQueue = g.sendQueue ++ [finRequest (g.ports i) addr]
  | .listen | .synSent =>
      (g'.ports i).state = .closed ∧ (g'.ports i).selfPortNum = 0 ∧ g'.sendQueue = g.sendQueue
  | .finWait1 | .closeWait | .finWait2 | .lastAck | .timeWait | .closed =>
      (g'.ports i).state = (g.ports i).state ∧ g'.sendQueue = g.sendQueue

/-- The step is an iteration of `tcp_task` on a close command that finds port `i`. -/
structure ClosesPort (s : System) (a : Action) (addr : Ipv4Addr) (i : PortIdx) : Prop where
  command : ∃ self other, Processes s a (.cmd (.close self other addr)) ∧
    findPort s.g self other addr = some i
  running : s.tcpTask = .running

/-- The step, if it is a close command for a port, does to it what it is to do, and `tcp_task`
    goes on. -/
def ClosesRightly (s : System) (a : Action) : Prop :=
  ∀ addr i, ClosesPort s a addr i →
    ∃ s', step s a = some s' ∧ s'.tcpTask = .running ∧ Closes s.g i addr s'.g

/-- The step, if it is a close command for a port, finds a slot for the FIN, and either a
    connection to close and a place in `send_queue`, or the port in `FIN_WAIT_1` and no place. -/
def Closable (s : System) (a : Action) : Prop :=
  ∀ addr i, ClosesPort s a addr i →
    0 < (s.g.ports i).slots ∧
      (((s.g.ports i).state = .established ∨ (s.g.ports i).state = .synReceived) ∧
          s.g.sendQueue.length < sendQueueLength ∨
        (s.g.ports i).state = .finWait1 ∧ ¬ s.g.sendQueue.length < sendQueueLength)

section Command
variable {g g' : Globals} {self other : BitVec 16} {addr : Ipv4Addr} {i : PortIdx} {r : EspErr}

/-- The command hands the FIN of its port to `tcp_enqueue_reliable`. -/
theorem tcpClosePortInternal_eq (hfind : findPort g self other addr = some i) :
    tcpClosePortInternal g self other addr =
      match (g.ports i).unackedSlots with
      | none => .undefined
      | some sem =>
          match sem.take with
          | none => .blocked (g.setState i .finWait1) (.slots i)
          | some sem' =>
              let closing := g.setState i .finWait1
              let taken := closing.setPort i
                { closing.ports i with unackedSlots := some sem' }
              let result := enqueueTaken taken i sem.handle (finRequest (g.ports i) addr)
              .done result.1 result.2 := by
  have hfin : findPort (g.setState i .finWait1) (finRequest (g.ports i) addr).srcPort
      (finRequest (g.ports i) addr).dstPort (finRequest (g.ports i) addr).dstIpv4Addr = some i :=
    findParamsPort_closing (Stage.refl g) hfind
  have hslots : ((g.setState i .finWait1).ports i).unackedSlots = (g.ports i).unackedSlots := by
    simp [Globals.setState]
  unfold tcpClosePortInternal
  rw [hfind]
  dsimp only
  unfold tcpEnqueueReliable
  rw [hfin]
  dsimp only
  rw [hslots]
  cases (g.ports i).unackedSlots with
  | none => rfl
  | some sem =>
      dsimp only
      cases sem.take with
      | none => exact if_neg portMaxDelay_ne_zero
      | some sem' => rfl

/-- A command that returns has found a slot and has moved its port to `FIN_WAIT_1`; the FIN is
    in `send_queue` if there was a place. -/
theorem tcpClosePortInternal_done (hfind : findPort g self other addr = some i)
    (h : tcpClosePortInternal g self other addr = .done g' r) :
    0 < (g.ports i).slots ∧ (g'.ports i).state = .finWait1 ∧
      g'.sendQueue =
        if g.sendQueue.length < sendQueueLength then
          g.sendQueue ++ [finRequest (g.ports i) addr]
        else g.sendQueue := by
  rw [tcpClosePortInternal_eq hfind] at h
  cases hsem : (g.ports i).unackedSlots with
  | none => simp [hsem] at h
  | some sem =>
      cases htake : sem.take with
      | none => simp [hsem, htake] at h
      | some sem' =>
          have hcount := (CountingSemaphore.take_some htake).2
          have hpos : 0 < (g.ports i).slots := by
            simp only [TcpPort.slots, hsem, Option.map_some, Option.getD_some]
            omega
          simp only [hsem, htake, Globals.setState, Globals.ports_setPort, Function.update_self,
            enqueueTaken, Globals.sendQueue_setPort, reduceCtorEq, if_false] at h
          obtain ⟨rfl, -⟩ := Outcome.done.inj h
          refine ⟨hpos, ?_⟩
          split
          · simp
          · simp [ports_giveSlot, TcpPort.given]

/-- A command that finds a slot returns. -/
theorem tcpClosePortInternal_returns (hfind : findPort g self other addr = some i)
    (hslots : 0 < (g.ports i).slots) :
    ∃ g' r, tcpClosePortInternal g self other addr = .done g' r := by
  simp only [tcpClosePortInternal, hfind]
  apply tcpEnqueueReliable_returns portMaxDelay (findParamsPort_closing (Stage.refl g) hfind)
  simpa [Globals.setState, TcpPort.slots] using hslots

/-- Moving to `FIN_WAIT_1` and queueing a FIN where there is a place is what a command is to do
    in these cases only. -/
theorem closes_iff (hstate : (g'.ports i).state = .finWait1)
    (hqueue : g'.sendQueue =
      if g.sendQueue.length < sendQueueLength then g.sendQueue ++ [finRequest (g.ports i) addr]
      else g.sendQueue) :
    Closes g i addr g' ↔
      ((g.ports i).state = .established ∨ (g.ports i).state = .synReceived) ∧
          g.sendQueue.length < sendQueueLength ∨
        (g.ports i).state = .finWait1 ∧ ¬ g.sendQueue.length < sendQueueLength := by
  have hplace : g'.sendQueue = g.sendQueue ++ [finRequest (g.ports i) addr] ↔
      g.sendQueue.length < sendQueueLength := by
    rw [hqueue]
    split <;> simp_all
  have hfull : g'.sendQueue = g.sendQueue ↔ ¬ g.sendQueue.length < sendQueueLength := by
    rw [hqueue]
    split <;> simp_all
  cases h : (g.ports i).state <;> simp [Closes, h, hstate, hplace, hfull]

end Command

section Step
variable {s : System} {a : Action} {addr : Ipv4Addr} {i : PortIdx}

/-- The step of a close command is the command, in a state with the same ports and the same
    `send_queue`. -/
theorem ClosesPort.step_eq (h : ClosesPort s a addr i) :
    ∃ g self other, g.ports = s.g.ports ∧ g.sendQueue = s.g.sendQueue ∧
      findPort g self other addr = some i ∧
      step s a = afterTask ((tcpClosePortInternal g self other addr).bind fun g _ => .done g ()) := by
  obtain ⟨⟨self, other, ⟨⟨env, rfl⟩, hin⟩, hfind⟩, hrunning⟩ := h
  obtain ⟨hquiet, hports, -⟩ := selectInput_quiet (g := s.g) (by simp [hin])
  refine ⟨(selectInput s.g).1, self, other, hports, hquiet.sendQueue, ?_, ?_⟩
  · exact (findPort_congr (g := s.g) (fun j => by rw [hports]) self other addr).trans hfind
  · simp [step, hrunning, tcpTaskIteration, hin, executeInput, executeCmd]

/-- A step with a close command for a port does what it is to do exactly under the condition. -/
theorem closesRightly_iff_closable (s : System) (a : Action) :
    ClosesRightly s a ↔ Closable s a := by
  refine forall_congr' fun addr => forall_congr' fun i => imp_congr_right ?_
  intro hcloses
  obtain ⟨g, self, other, hports, hqueue, hfind, hstep⟩ := hcloses.step_eq
  have hsame : ∀ g', Closes s.g i addr g' ↔ Closes g i addr g' := by
    intro g'
    simp only [Closes, hports, hqueue]
  rw [← hports, ← hqueue]
  constructor
  · rintro ⟨s', hs', hrun, hright⟩
    rw [hstep] at hs'
    cases hcall : tcpClosePortInternal g self other addr with
    | blocked g' on =>
        rw [hcall] at hs'
        obtain rfl := Option.some.inj hs'
        cases hrun
    | undefined =>
        rw [hcall] at hs'
        cases hs'
    | done g' r =>
        rw [hcall] at hs'
        obtain rfl := Option.some.inj hs'
        obtain ⟨hslots, hstate, hsent⟩ := tcpClosePortInternal_done hfind hcall
        exact ⟨hslots, (closes_iff hstate hsent).mp ((hsame g').mp hright)⟩
  · rintro ⟨hslots, hcondition⟩
    obtain ⟨g', r, hcall⟩ := tcpClosePortInternal_returns hfind hslots
    obtain ⟨-, hstate, hsent⟩ := tcpClosePortInternal_done hfind hcall
    refine ⟨⟨g', .running⟩, ?_, rfl, (hsame g').mpr ((closes_iff hstate hsent).mpr hcondition)⟩
    rw [hstep, hcall]
    rfl

end Step

/-- In a run every close command does to its port what it is to do exactly when all its close
    commands are given under the condition. -/
theorem close_commands_legal_iff (net : NetContext) (as : List Action) :
    Guarded step ClosesRightly (boot net) as ↔ Guarded step Closable (boot net) as := by
  constructor
  · intro h
    exact h.mono fun s a => (closesRightly_iff_closable s a).mp
  · intro h
    exact h.mono fun s a => (closesRightly_iff_closable s a).mpr

/-- The host listens, and an application closes the listening port. -/
def closesListener : List Action :=
  [.tcpListenPort 80 (some 1) (some 2) (some 3), iterates, .tcpClosePort 80 0 ipv4AllZeroes]

/-- The task takes the command to close the port that listens at 80. -/
def takesClose (s : System) : Bool :=
  match (selectInput s.g).2 with
  | .cmd (.close 80 0 addr) => addr == ipv4AllZeroes
  | _ => false

theorem input_of_takesClose {s : System} (h : takesClose s = true) :
    (selectInput s.g).2 = .cmd (.close 80 0 ipv4AllZeroes) := by
  unfold takesClose at h
  split at h
  case h_1 addr hcmd =>
    obtain rfl := beq_iff_eq.mp h
    exact hcmd
  case h_2 => cases h

/-- The command leaves the listening port in `FIN_WAIT_1` with a FIN to nobody on its way. -/
theorem listener_not_closed :
    ∃ s s', run step (boot hostNet) closesListener = some s ∧
      ClosesPort s iterates ipv4AllZeroes 0 ∧ (s.g.ports 0).state = .listen ∧
      step s iterates = some s' ∧ (s'.g.ports 0).state = .finWait1 ∧ s'.g.sendQueue ≠ [] ∧
      ¬ ClosesRightly s iterates := by
  obtain ⟨s, hs, hend⟩ := run_any
    (show (run step (boot hostNet) closesListener).any (fun s =>
      (s.g.ports 0).state == .listen && s.tcpTask == .running &&
        (findPort s.g 80 0 ipv4AllZeroes == some 0 && takesClose s) &&
        (step s iterates).any fun s' =>
          (s'.g.ports 0).state == .finWait1 && !s'.g.sendQueue.isEmpty) = true by decide +kernel)
  simp only [Bool.and_eq_true, beq_iff_eq, Option.any_eq_true, Bool.not_eq_true',
    List.isEmpty_eq_false_iff] at hend
  obtain ⟨⟨⟨hstate, hrunning⟩, hfind, hin⟩, s', hs', hfin, hqueued⟩ := hend
  have hcloses : ClosesPort s iterates ipv4AllZeroes 0 :=
    ⟨⟨80, 0, ⟨⟨_, rfl⟩, input_of_takesClose hin⟩, hfind⟩, hrunning⟩
  refine ⟨s, s', hs, hcloses, hstate, hs', hfin, hqueued, ?_⟩
  intro hright
  have hcondition := ((closesRightly_iff_closable s iterates).mp hright _ _ hcloses).2
  simp [hstate] at hcondition

end NetStack.Tcp
