import NetStack.Tcp.Proofs.Moves
import NetStack.Tcp.Proofs.Datagram

/-!
# When `tcp_task` waits for ever

Only `tcp_task` takes items out of `send_queue` and processes acknowledgements, so that a
wait without end of `tcp_task` is a deadlock. `waits` says which steps end in one, from the
state before the step, and `tcp_task` runs at the end of a run exactly if no step did.
-/

namespace NetStack.Tcp
open NetStack.Lib

/-- Processing the segment waits: for a place for its ACK in a full `send_queue`, or for a
    slot for the SYN+ACK or the FIN+ACK that answers it. -/
def segmentWaits (g : Globals) (i : PortIdx) (seg : Segment) : Bool :=
  acknowledges (g.ports i) seg && !(g.sendQueue.length < sendQueueLength) ||
    ((g.ports i).state == .listen && seg.syn || (g.ports i).state == .established && seg.fin) &&
      !slotAvailable (g.ports i) seg

/-- A connect command waits: its SYN resolves to an older port in front of the new one. -/
def connectWaits (g : Globals) (self other : BitVec 16) (addr : Ipv4Addr) : Bool :=
  match findUnusedPort g, findPort g self other addr with
  | some k, some j => j < k && (g.ports j).slots == 0
  | _, _ => false

/-- A close command waits. -/
def closeWaits (g : Globals) (self other : BitVec 16) (addr : Ipv4Addr) : Bool :=
  (findPort g self other addr).any fun i => (g.ports i).slots == 0

/-- The step ends with `tcp_task` waiting for what only `tcp_task` provides. -/
def waits (s : System) : Action → Bool
  | .tcpTask env =>
      match (selectInput s.g).2 with
      | .segment seg =>
          match checkSegment s.g seg with
          | .accept i => segmentWaits s.g i seg
          | _ => false
      | .cmd (.createAndConnect self other addr _ _ _) =>
          env.semaphore && connectWaits s.g self other addr
      | .cmd (.close self other addr) => closeWaits s.g self other addr
      | _ => false
  | .tcpSend true src dst addr _ _ timeout =>
      timeout == portMaxDelay && closeWaits s.g src dst addr
  | _ => false

/-- A call that does not wait leaves `tcp_task` running. -/
theorem afterTask_running {o : Outcome Unit} {s' : System} (h : afterTask o = some s')
    (ho : ∀ g on, o ≠ .blocked g on) : s'.tcpTask = .running := by
  cases o with
  | done g u => exact (Option.some.inj h) ▸ rfl
  | blocked g on => exact absurd rfl (ho g on)
  | undefined => cases h

/-- A reliable request with no time limit waits exactly if its port, which has a semaphore, has
    no slot. -/
theorem enqueueReply_running_iff {g : Globals} {params : TcpTransmitParams} {i : PortIdx}
    {s' : System} {k : Globals → EspErr → Outcome Unit} (hk : ∀ g r, ∃ g', k g r = .done g' ())
    (h : afterTask ((tcpEnqueueReliable g params portMaxDelay).bind k) = some s')
    (hfind : findParamsPort g params = some i) :
    (g.ports i).unackedSlots.isSome = true ∧ (s'.tcpTask = .running ↔ (g.ports i).slots ≠ 0) := by
  have hfind' : findPort g params.srcPort params.dstPort params.dstIpv4Addr = some i := hfind
  unfold tcpEnqueueReliable at h
  simp only [hfind'] at h
  cases hsem : (g.ports i).unackedSlots with
  | none => simp [hsem, Outcome.bind, afterTask] at h
  | some sem =>
      have hslots : (g.ports i).slots = sem.count := by simp [TcpPort.slots, hsem]
      simp only [hsem] at h
      cases htake : sem.take with
      | none =>
          simp only [htake, portMaxDelay_ne_zero, if_false] at h
          obtain rfl := Option.some.inj h
          exact ⟨rfl, by simp [hslots, CountingSemaphore.take_eq_none_iff.mp htake]⟩
      | some sem' =>
          simp only [htake] at h
          have hcount := (CountingSemaphore.take_some htake).2
          have hrun : s'.tcpTask = .running := by
            apply afterTask_running h
            intro g' on
            obtain ⟨g₁, hg₁⟩ := hk _ _
            rw [Outcome.bind, hg₁]
            simp
          simp only [hrun, hslots, true_iff]
          exact ⟨rfl, by omega⟩

/-- When no entry is acknowledged, ACK processing does nothing. -/
theorem processAck_eq_self {g : Globals} {i : PortIdx} {n : BitVec 32}
    (h : ¬ (n ≤ (g.ports i).seqNum ∧
      (firstIdx fun j => ((g.ports i).unacked j).inUse && ((g.ports i).unacked j).seqNum ≤ n).isSome)) :
    processAck g i n = g := by
  unfold processAck
  split
  case isTrue hnum =>
      have hnone : firstIdx (fun j => ((g.ports i).unacked j).inUse &&
          ((g.ports i).unacked j).seqNum ≤ n) = none := by
        simpa [hnum] using h
      refine forIdx_invariant (P := (· = g)) ?_ rfl
      rintro j g' rfl
      rw [ackUnacked_eq, if_neg]
      simpa using firstIdx_eq_none_iff.mp hnone j
  case isFalse => rfl

/-- The state after ACK processing has a slot exactly if one was available. -/
theorem released_slots_iff {g : Globals} {i : PortIdx} {seg : Segment} {released : Globals}
    (hreleased : (if seg.ack then processAck g i seg.header.ackNum else g) = released)
    (hsome : (released.ports i).unackedSlots.isSome = true) :
    (released.ports i).slots ≠ 0 ↔ slotAvailable (g.ports i) seg = true := by
  subst hreleased
  constructor
  · intro hpos
    by_contra hno
    simp only [slotAvailable, Bool.or_eq_true, decide_eq_true_eq, Bool.and_eq_true, not_or] at hno
    apply hpos
    split
    case isTrue hack =>
        rw [processAck_eq_self (by simpa [hack] using hno.2)]
        omega
    case isFalse => omega
  · intro havailable
    apply Nat.pos_iff_ne_zero.mp
    split at hsome
    case isTrue hack =>
        rw [if_pos hack]
        exact processAck_slots havailable hsome
    case isFalse hack =>
        rw [if_neg hack]
        simpa [slotAvailable, hack] using havailable

theorem callOnDisconnect_ne_blocked {g : Globals} {i : PortIdx} {incarnation : Option Nat} :
    ∀ g' on, callOnDisconnect g i incarnation ≠ .blocked g' on := by
  unfold callOnDisconnect
  split <;> simp

/-- The state's case waits exactly if it answers with a SYN or FIN and there is no slot. -/
theorem inputState_running_iff {s s' : System} {a : Action} {g : Globals} {i : PortIdx}
    {seg : Segment} (hacc : Accepts s a i seg) (hstage : Stage s.g (acksOf (s.g.ports i) seg) g)
    (h : afterTask (inputState g i seg) = some s')
    (hslots : (g.ports i).unackedSlots.isSome = true →
      ((g.ports i).slots ≠ 0 ↔ slotAvailable (s.g.ports i) seg = true)) :
    s'.tcpTask = .running ↔
      (((s.g.ports i).state == .listen && seg.syn ||
        (s.g.ports i).state == .established && seg.fin) &&
          !slotAvailable (s.g.ports i) seg) = false := by
  have hfind := (checkSegment_accept hacc.verdict).1
  have hstate := hstage.state i
  have hcount : ∀ {k : Globals → EspErr → Outcome Unit} {params : TcpTransmitParams}
      {g' : Globals}, (∀ g r, ∃ g', k g r = .done g' ()) →
      afterTask ((tcpEnqueueReliable g' params portMaxDelay).bind k) = some s' →
      findParamsPort g' params = some i → (g'.ports i).unackedSlots = (g.ports i).unackedSlots →
      (s'.tcpTask = .running ↔ slotAvailable (s.g.ports i) seg = true) := by
    intro k params g' hk h hfind hsame
    have hsame' : (g'.ports i).slots = (g.ports i).slots := by simp [TcpPort.slots, hsame]
    obtain ⟨hsome, hiff⟩ := enqueueReply_running_iff hk h hfind
    rw [hiff, hsame', hslots (hsame ▸ hsome)]
  unfold inputState at h
  split at h <;> rename_i hcase <;> rw [hstate] at hcase
  · -- LISTEN
    unfold inputListen at h
    split at h
    case isTrue hsyn =>
        simp [afterTask_running h (by simp), hsyn, hcase]
    case isFalse hsyn =>
        have hkey : findParamsPort (g.setPort i ((g.ports i).takenOver seg))
            (replyParams ((g.ports i).takenOver seg) seg.srcIpv4Addr (SYN + ACK)) = some i := by
          have htaken := findParamsPort_takenOver hfind (SYN + ACK)
          rw [@replyParams_congr _ ((s.g.ports i).takenOver seg) ?_]
          · refine (findParamsPort_congr (fun j => ?_) _).trans htaken
            by_cases hj : j = i
            · subst hj
              simpa [TcpPort.key, TcpPort.takenOver] using
                TcpPort.selfPortNum_of_settled (hstage.settled j)
            · simpa [hj] using hstage.key j
          · have := hstage.settled i
            simp only [TcpPort.settled, TcpPort.mk.injEq] at this
            simp [TcpPort.settled, TcpPort.takenOver, this]
        rw [hcount (fun g r => ⟨g, rfl⟩) h (by simpa [TcpPort.takenOver] using hkey)
          (by simp)]
        simp [hcase, hsyn]
  · simp [afterTask_running h (by simp), hcase]
  · simp [afterTask_running h (by simp), hcase]
  · -- ESTABLISHED
    unfold inputEstablished at h
    split at h
    case isTrue hfin =>
        have hkey : findParamsPort g
            (replyParams (g.ports i) seg.srcIpv4Addr (FIN + ACK)) = some i := by
          have hby := findParamsPort_of_segment hfind (by simp [hcase])
          obtain ⟨hki, -⟩ := findPort_eq_some_iff.mp hby
          have hsame : (replyParams (g.ports i) seg.srcIpv4Addr (FIN + ACK)).key = seg.key := by
            rw [replyParams_congr (hstage.settled i)]
            have hk := hki
            simp only [TcpPort.key, Prod.mk.injEq] at hk
            simp [TcpTransmitParams.key, replyParams, Segment.key, hk]
          rw [hstage.findParamsPort]
          apply findParamsPort_eq_some_iff.mpr
          rw [hsame]
          exact findPort_eq_some_iff.mp hby
        rw [hcount (fun g r => ⟨_, rfl⟩) h hkey rfl]
        simp [hcase, hfin]
    case isFalse hfin =>
        simp [afterTask_running h (by simp), hcase, hfin]
  · have hrun : s'.tcpTask = .running := by
      apply afterTask_running h
      intro g' on
      unfold inputLastAck
      split_ifs <;> [simp; simp; exact callOnDisconnect_ne_blocked g' on]
    simp [hrun, hcase]
  · have hrun : s'.tcpTask = .running := by
      apply afterTask_running h
      intro g' on
      unfold inputFinWait1
      split_ifs <;> [exact callOnDisconnect_ne_blocked g' on; simp; simp]
    simp [hrun, hcase]
  · have hrun : s'.tcpTask = .running := by
      apply afterTask_running h
      intro g' on
      unfold inputFinWait2
      split_ifs <;> [simp; exact callOnDisconnect_ne_blocked g' on]
    simp [hrun, hcase]
  all_goals simp [afterTask_running h (by simp), hcase]

theorem acceptSegment_running_iff {s s' : System} {a : Action} {g : Globals} {i : PortIdx}
    {seg : Segment} (hacc : Accepts s a i seg) (hports : g.ports = s.g.ports)
    (hquiet : Quiet s.g g) (h : afterTask (acceptSegment g i seg) = some s') :
    s'.tcpTask = .running ↔ segmentWaits s.g i seg = false := by
  unfold segmentWaits
  cases acceptSegment_cases hacc hquiet h with
  | stuck _ hstage hacks hfull hs' =>
      have hfull' : ¬ s.g.sendQueue.length < sendQueueLength := by
        simpa [hstage.sendQueue] using hfull
      simp [hs', hacks, hfull']
  | @answered released g' _ hreleased hroom hstage hsame h =>
      rw [inputState_running_iff hacc hstage h ?_]
      · rw [Bool.or_eq_false_iff]
        refine (and_iff_right ?_).symm
        cases hacks : acknowledges (s.g.ports i) seg with
        | false => rfl
        | true => simpa using hroom hacks
      · intro hsome
        have hslots : (g'.ports i).slots = (released.ports i).slots := by
          simp [TcpPort.slots, hsame]
        rw [hsame] at hsome
        rw [hslots, released_slots_iff hreleased hsome, hports]

/-- The SYN of a connect command resolves to the new port, or to an older one before it. -/
theorem findParamsPort_connecting {g : Globals} {self other : BitVec 16} {addr : Ipv4Addr}
    {k : PortIdx} {p : TcpPort} (hp : p.key = (self, other, addr)) :
    findPort (g.setPort k p) self other addr =
      match findPort g self other addr with
      | some j => if j < k then some j else some k
      | none => some k := by
  split
  case h_1 j hj =>
      obtain ⟨hkey, hfirst⟩ := findPort_eq_some_iff.mp hj
      split
      case isTrue hlt =>
          refine findPort_eq_some_iff.mpr ⟨by simpa [ne_of_lt hlt] using hkey, fun l hl => ?_⟩
          simpa [ne_of_lt (hl.trans hlt)] using hfirst l hl
      case isFalse hnot =>
          refine findPort_eq_some_iff.mpr ⟨by simpa using hp, fun l hl => ?_⟩
          simpa [ne_of_lt hl] using hfirst l (lt_of_lt_of_le hl (not_lt.mp hnot))
  case h_2 hnone =>
      refine findPort_eq_some_iff.mpr ⟨by simpa using hp, fun l hl => ?_⟩
      simpa [ne_of_lt hl] using findPort_eq_none_iff.mp hnone l

theorem executeCmd_running_iff {s s' : System} {env : TaskEnv} {g : Globals} {cmd : TcpPortCmd}
    (hin : (selectInput s.g).2 = .cmd cmd) (hports : g.ports = s.g.ports)
    (h : afterTask (executeCmd g cmd env.semaphore) = some s') :
    s'.tcpTask = .running ↔ waits s (.tcpTask env) = false := by
  have hfind : ∀ self other addr, findPort g self other addr = findPort s.g self other addr :=
    findPort_congr (by simp [hports])
  have hunused : findUnusedPort g = findUnusedPort s.g := by simp [findUnusedPort, hports]
  cases cmd with
  | createAndListen self onReceive onConnect onDisconnect =>
      simp [waits, hin, afterTask_running h (by simp [executeCmd])]
  | close self other addr =>
      simp only [executeCmd, tcpClosePortInternal, hfind] at h
      simp only [waits, hin, closeWaits]
      split at h
      case h_1 hnone => simp [afterTask_running h (by simp [Outcome.bind]), hnone]
      case h_2 i hi =>
          have hkey : findParamsPort (g.setState i .finWait1) (finRequest (g.ports i) addr) =
              some i := by
            rw [findParamsPort_setState]
            exact findParamsPort_of_findPort ((hfind self other addr).trans hi)
              (finRequest_key ((hfind self other addr).trans hi))
          obtain ⟨-, hiff⟩ := enqueueReply_running_iff (fun g r => ⟨g, rfl⟩) h hkey
          have hslots : ((g.setState i .finWait1).ports i).slots = (s.g.ports i).slots := by
            simp [Globals.setState, TcpPort.slots, hports]
          simp [hi, hiff, hslots]
  | createAndConnect self other addr onReceive onConnect onDisconnect =>
      simp only [executeCmd, tcpConnectPortInternal] at h
      simp only [waits, hin, connectWaits]
      split at h
      case h_1 hnone =>
          have hno : (env.semaphore && (findUnusedPort s.g).isSome) = false := by
            unfold tcpCreatePortInternal at hnone
            cases hsem : env.semaphore with
            | false => rfl
            | true =>
                cases hfree : findUnusedPort g with
                | none => simp [← hunused, hfree]
                | some k => simp [hsem, hfree] at hnone
          have hrun := afterTask_running h (by simp [Outcome.bind])
          cases hfree : findUnusedPort s.g <;> simp_all
      case h_2 k hk =>
          obtain ⟨hfree, hcreate⟩ := tcpCreatePortInternal_some hk
          have hsem : env.semaphore = true := by
            by_contra hno
            simp [tcpCreatePortInternal, hno] at hk
          simp only [hcreate, Globals.ports_setPort, Function.update_self] at h
          generalize hnew : connectingPort (newPort self g.nextAddr onReceive onConnect
            onDisconnect) other addr = new at h
          have hkey : new.key = (self, other, addr) := by subst hnew; rfl
          have hslots : new.slots = maxUnacked := by subst hnew; rfl
          have hres := findParamsPort_connecting (g := g) (k := k) hkey
          rw [hfind] at hres
          have hsyn : ∀ g', findParamsPort g' (synRequest new addr) = findPort g' self other addr :=
            fun g' => by subst hnew; rfl
          have hsame : ∀ g' : Globals, findPort (Globals.setPort (Globals.setPort
              { g with nextAddr := g.nextAddr + 1 } k
              (newPort self g.nextAddr onReceive onConnect onDisconnect)) k new) self other addr =
              findPort (g.setPort k new) self other addr :=
            fun _ => findPort_congr (by simp [Globals.setPort]) _ _ _
          rw [← hunused, hfree, hsem]
          simp only [Bool.true_and]
          cases hold : findPort s.g self other addr with
          | none =>
              simp only [hold] at hres
              obtain ⟨-, hiff⟩ := enqueueReply_running_iff (fun g r => ⟨g, rfl⟩) h
                (by rw [hsyn, hsame g, hres])
              simp [hiff, hslots]
          | some j =>
              simp only [hold] at hres
              by_cases hlt : j < k
              · rw [if_pos hlt] at hres
                obtain ⟨-, hiff⟩ := enqueueReply_running_iff (fun g r => ⟨g, rfl⟩) h
                  (by rw [hsyn, hsame g, hres])
                simp [hiff, hlt, ne_of_lt hlt, Globals.setPort, hports]
              · rw [if_neg hlt] at hres
                obtain ⟨-, hiff⟩ := enqueueReply_running_iff (fun g r => ⟨g, rfl⟩) h
                  (by rw [hsyn, hsame g, hres])
                simp [hiff, hlt, hslots]


theorem inputTcpInternal_running_iff {s s' : System} {env : TaskEnv} {g : Globals}
    {seg : Segment} (hin : (selectInput s.g).2 = .segment seg) (hports : g.ports = s.g.ports)
    (hquiet : Quiet s.g g) (h : afterTask (inputTcpInternal g seg) = some s') :
    s'.tcpTask = .running ↔ waits s (.tcpTask env) = false := by
  unfold inputTcpInternal at h
  rw [checkSegment_congr hports] at h
  simp only [waits, hin]
  split at h
  case h_1 why hverdict => simp [afterTask_running h (by simp), hverdict]
  case h_2 i hverdict => simp [afterTask_running h (by simp), hverdict]
  case h_3 i hverdict =>
      rw [hverdict]
      exact acceptSegment_running_iff (a := .tcpTask env) ⟨⟨⟨env, rfl⟩, hin⟩, hverdict⟩ hports
        hquiet h

theorem tcpTaskIteration_running_iff {s s' : System} {env : TaskEnv}
    (h : afterTask (tcpTaskIteration s.g env) = some s') :
    s'.tcpTask = .running ↔ waits s (.tcpTask env) = false := by
  unfold tcpTaskIteration at h
  cases hin : (selectInput s.g).2 with
  | scan | send | nothing =>
      rw [hin] at h
      simp [afterTask_running h (by simp [executeInput]), waits, hin]
  | segment seg =>
      obtain ⟨hquiet, hports, -⟩ := selectInput_quiet (g := s.g) (by simp [hin])
      rw [hin] at h
      exact inputTcpInternal_running_iff hin hports hquiet h
  | cmd cmd =>
      obtain ⟨-, hports, -⟩ := selectInput_quiet (g := s.g) (by simp [hin])
      rw [hin] at h
      exact executeCmd_running_iff hin hports h

/-- A `tcp_send` waits for ever exactly if a callback makes it with no time limit for a port
    that has no slot. -/
theorem callTcpSend_blocked_iff {g : Globals} {inCallback : Bool} {src dst : BitVec 16}
    {addr : Ipv4Addr} {data : Option Memory} {len : BitVec 16} {timeout : BitVec 32}
    (h : callTcpSend g inCallback src dst addr data len timeout ≠ .undefined) :
    (∃ g' on, callTcpSend g inCallback src dst addr data len timeout = .blocked g' on) ↔
      inCallback = true ∧ timeout = portMaxDelay ∧ closeWaits g src dst addr = true := by
  generalize hblock : (data.map fun bytes => (⟨g.nextAddr, bytes⟩ : Block)) = block
  generalize hallocated : ({ g with nextAddr := g.nextAddr + 1 } : Globals) = allocated
  have hports : allocated.ports = g.ports := hallocated ▸ rfl
  have hfind : ∀ self other addr, findPort allocated self other addr = findPort g self other addr :=
    findPort_congr (by simp [hports])
  unfold callTcpSend at h ⊢
  simp only [hblock, hallocated, tcpSend, hfind] at h ⊢
  unfold closeWaits
  cases hi : findPort g src dst addr with
  | none => simp
  | some i =>
      have hkey : findPort g (g.ports i).selfPortNum (g.ports i).otherPortNum
          (g.ports i).otherIpv4Addr = some i := by
        obtain ⟨hkey, hfirst⟩ := findPort_eq_some_iff.mp hi
        exact findPort_eq_some_iff.mpr ⟨rfl, fun j hj => by
          simpa [← hkey, TcpPort.key] using hfirst j hj⟩
      simp only [hi, tcpEnqueueReliable, tcpSendParams, hfind, hports, hkey] at h ⊢
      cases hsem : (g.ports i).unackedSlots with
      | none => simp [hsem] at h
      | some sem =>
          simp only [hsem, TcpPort.slots, Option.map_some, Option.getD_some, Option.any_some] at h ⊢
          cases htake : sem.take with
          | some sem' =>
              have := (CountingSemaphore.take_some htake).2
              simp [← this]
          | none =>
              have hzero := CountingSemaphore.take_eq_none_iff.mp htake
              by_cases htimeout : timeout = 0
              · simp [htimeout, hzero, portMaxDelay]
              · simp only [htimeout, if_false, hzero, beq_self_eq_true, and_true]
                cases inCallback with
                | false => simp [addSender, hports, hsem]
                | true => by_cases hmax : timeout = portMaxDelay <;> simp [hmax]

/-- After a step `tcp_task` runs exactly if it ran before and the step does not wait. -/
theorem step_running_iff {s s' : System} {a : Action} (h : step s a = some s') :
    s'.tcpTask = .running ↔ s.tcpTask = .running ∧ waits s a = false := by
  refine ⟨fun hs' => ⟨running_of_step h hs', ?_⟩, fun ⟨hs, hwaits⟩ => ?_⟩ <;> cases a
  case refine_1.tcpTask env =>
    simp only [step, running_of_step h hs'] at h
    exact (tcpTaskIteration_running_iff h).mp hs'
  case refine_2.tcpTask env =>
    simp only [step, hs] at h
    exact (tcpTaskIteration_running_iff h).mpr hwaits
  case refine_1.tcpSend inCallback src dst addr data len timeout =>
    cases inCallback with
    | false => rfl
    | true =>
        simp only [step, running_of_step h hs', ne_eq, not_true, and_false, if_false] at h
        by_contra hne
        simp only [waits, Bool.not_eq_false, Bool.and_eq_true, beq_iff_eq] at hne
        have hdef : callTcpSend s.g true src dst addr data len timeout ≠ .undefined := by
          intro hu
          simp [hu] at h
        obtain ⟨g', on, hblocked⟩ := (callTcpSend_blocked_iff hdef).mpr ⟨rfl, hne⟩
        simp only [hblocked] at h
        obtain rfl := Option.some.inj h
        cases hs'
  case refine_2.tcpSend inCallback src dst addr data len timeout =>
    simp only [step, hs, ne_eq, not_true, and_false, if_false] at h
    split at h
    case h_1 => exact (Option.some.inj h) ▸ rfl
    case h_2 g' on hcall =>
        obtain ⟨rfl, htimeout, hclose⟩ :=
          (callTcpSend_blocked_iff (by rw [hcall]; simp)).mp ⟨g', on, hcall⟩
        simp [waits, htimeout, hclose] at hwaits
    case h_3 => cases h
  case refine_2.resumeSender =>
    obtain ⟨g', -, rfl⟩ := Option.map_eq_some_iff.mp h
    exact hs
  case refine_2.timeoutSender =>
    obtain ⟨g', -, rfl⟩ := Option.map_eq_some_iff.mp h
    exact hs
  case refine_2.tcpConnectPort | refine_2.tcpListenPort | refine_2.tcpClosePort |
      refine_2.inputTcp | refine_2.tick =>
    obtain rfl := Option.some.inj h
    exact hs
  all_goals rfl

/-- `tcp_task` runs at the end of a run, so that none of its waits without a time limit has
    been for a full queue or a port without slots, exactly if no step of the run waits. -/
theorem running_iff_never_waits {net : NetContext} {as : List Action} {s : System}
    (hrun : run step (boot net) as = some s) :
    s.tcpTask = .running ↔ Guarded step (fun s a => waits s a = false) (boot net) as :=
  run_iff_guarded (P := fun s => s.tcpTask = .running) (fun _ _ _ => step_running_iff) rfl hrun

/-- The host answers a handshake and does not wait. -/
theorem handshake_never_waits :
    ∃ s, run step (boot hostNet) (handshake peerNet.ip) = some s ∧ s.tcpTask = .running := by
  obtain ⟨s, hs, -⟩ := run_any
    (show (run step (boot hostNet) (handshake peerNet.ip)).any (fun _ => true) = true by
      decide +kernel)
  exact ⟨s, hs, (running_iff_never_waits hs).mpr (by decide +kernel)⟩

/-- Eight sends of the application on the connection of `handshake`. -/
def sendsEight : List Action :=
  List.replicate maxUnacked (.tcpSend false 80 5000 peerNet.ip (some fun _ => 7) 1 portMaxDelay)

/-- After a handshake a segment with data arrives, then the application fills `send_queue`. -/
def dataBeforeSends : List Action :=
  handshake peerNet.ip ++ arrives peerNet.ip 5000 80 1 1 (ACK + PSH) [42] :: sendsEight ++
    [iterates]

/-- After a handshake the peer acknowledges none of eight segments and closes. -/
def finAfterSends : List Action :=
  handshake peerNet.ip ++ sendsEight ++ List.replicate maxUnacked iterates ++
    [arrives peerNet.ip 5000 80 1 0 (FIN + ACK) [], iterates]

/-- `tcp_task` waits for a place in the queue that only it empties, and for a slot that only it
    gives back. -/
theorem tcpTask_waits :
    (∃ s, run step (boot hostNet) dataBeforeSends = some s ∧
      s.g.sendQueue.length = sendQueueLength ∧ s.tcpTask = .blocked .sendQueue) ∧
    ∃ s, run step (boot hostNet) finAfterSends = some s ∧
      (s.g.ports 0).slots = 0 ∧ s.tcpTask = .blocked (.slots 0) := by
  refine ⟨?_, ?_⟩
  · obtain ⟨s, hs, hend⟩ := run_any
      (show (run step (boot hostNet) dataBeforeSends).any (fun s =>
        s.g.sendQueue.length == sendQueueLength && s.tcpTask == .blocked .sendQueue) = true by
          decide +kernel)
    exact ⟨s, hs, by simpa using hend⟩
  · obtain ⟨s, hs, hend⟩ := run_any
      (show (run step (boot hostNet) finAfterSends).any (fun s =>
        (s.g.ports 0).slots == 0 && s.tcpTask == .blocked (.slots 0)) = true by decide +kernel)
    exact ⟨s, hs, by simpa using hend⟩

end NetStack.Tcp
