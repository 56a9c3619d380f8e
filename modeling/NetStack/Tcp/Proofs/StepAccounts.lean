import NetStack.Tcp.Proofs.Accounts

/-!
# No step loses a block

`keepsOwners` is the condition under which a step keeps every payload and every datagram: a
dequeued request is given up before its datagram is allocated or not at all, a payload that is
transmitted again is not forgotten when IPv4 refuses the datagram, and a new port does not
overwrite entries. Under it the accounts of a step balance.
-/

namespace NetStack.Tcp
open NetStack.Lib

/-- The entries of the port hold no payload. -/
def holdsNothing (p : TcpPort) : Bool :=
  (List.finRange maxUnacked).all fun j => (p.unacked j).data.isNone

/-- The slot that a command overwrites holds no payload. -/
def overwritesNoPayload (g : Globals) (semaphore : Bool) : Bool :=
  !semaphore || (findUnusedPort g).all fun i => holdsNothing (g.ports i)

/-- What a dequeued request becomes keeps its payload and its datagram. -/
def sendKept (g : Globals) (env : SendEnv) (params : TcpTransmitParams) : Bool :=
  env.malloc.isNone ||
    (findParamsPort g params).any fun i =>
      if consumesSequence params then (findEmptyUnacked (g.ports i)).isSome
      else params.data.isNone

/-- If the scan retransmits entry `j` of port `p`, then its payload is kept or freed. -/
def retransmissionKept (g : Globals) (env : SendEnv) (p : PortIdx) (j : UnackedIdx) : Bool :=
  (g.ports p).selfPortNum == 0 || timeWaitOver g.tick (g.ports p) ||
    !retransmitDue g.tick ((g.ports p).unacked j) || ((g.ports p).unacked j).data.isNone ||
    env.malloc.isNone || env.ipv4Accepts

/-- The step loses no payload and no datagram. -/
def keepsOwners (s : System) : Action → Bool
  | .tcpTask env =>
      match (selectInput s.g).2 with
      | .send params => sendKept s.g env.send params
      | .scan =>
          (List.finRange maxPorts).all fun p =>
            (List.finRange maxUnacked).all fun j => retransmissionKept s.g (env.scan p j) p j
      | .cmd (.createAndConnect _ _ _ _ _ _) => overwritesNoPayload s.g env.semaphore
      | .cmd (.createAndListen _ _ _ _) => overwritesNoPayload s.g env.semaphore
      | .cmd (.close _ _ _) | .segment _ | .nothing => true
  | _ => true

section Steps
variable {x : Nat} {g g' : Globals} {hand : Nat} {s s' : System} {a : Action}

theorem accounts_scanTimeouts {env : PortIdx → UnackedIdx → SendEnv}
    (hkeeps : ∀ p j, retransmissionKept g (env p j) p j = true) :
    Accounts x g 0 (scanTimeouts g env) 0 := by
  refine scanTimeouts_related (R := fun g g' => Accounts x g 0 g' 0)
    (fun g => Accounts.refl x g 0) Accounts.trans (fun g' p _ => ?_) fun g' p j h => ?_
  · exact (primitives_tcpResetPort g' p).accounts x
  · apply accounts_retransmit
    have hlive : ((g.ports p).selfPortNum == 0) = false := by simpa using h.live
    have hkept := hkeeps p j
    rw [retransmissionKept, hlive, h.stays, h.due] at hkept
    simpa [h.entry, or_assoc] using hkept

theorem accounts_executeSend {params : TcpTransmitParams} {env : SendEnv} (hidle : IdleEmpty g)
    (hkeeps : sendKept g env params = true) :
    Accounts x g (holds x params.data) (executeSend g params env) 0 := by
  have hsend : Accounts x g (holds x params.data) (tcpSendInternal g params env).1 0 := by
    apply accounts_tcpSendInternal hidle
    rcases Bool.or_eq_true_iff.mp hkeeps with hnone | hfound
    · exact .inl (Option.isNone_iff_eq_none.mp hnone)
    · right
      cases hfind : findParamsPort g params with
      | none => simp [hfind] at hfound
      | some i =>
          rw [hfind, Option.any_some] at hfound
          refine ⟨i, rfl, ?_, ?_⟩
          · intro hconsumes
            rw [if_pos hconsumes] at hfound
            exact Option.isSome_iff_ne_none.mp hfound
          · intro hplain
            rw [hplain, if_neg Bool.false_ne_true] at hfound
            exact Option.isNone_iff_eq_none.mp hfound
  unfold executeSend
  dsimp only
  split
  · exact hsend
  · exact hsend.trans (accounts_warn _)

/-- A new port takes a slot that holds nothing. -/
theorem accounts_create (src : BitVec 16) (onReceive onConnect onDisconnect : Option FnPtr)
    {semaphore : Bool} (hkeeps : overwritesNoPayload g semaphore = true) :
    Accounts x g hand
      (tcpCreatePortInternal g src onReceive onConnect onDisconnect semaphore).1 hand := by
  have hallocate : Accounts x g hand { g with nextAddr := g.nextAddr + 1 } hand :=
    accounts_of_eq (fun _ => rfl) rfl rfl rfl (Nat.le_succ _)
  unfold tcpCreatePortInternal
  cases semaphore with
  | false => exact Accounts.refl x g hand
  | true =>
      rw [if_pos rfl]
      dsimp only
      split
      case h_1 i hfind =>
          have hempty : ∀ j, ((g.ports i).unacked j).data = none := by
            intro j
            have hall : holdsNothing (g.ports i) = true := by
              simpa [overwritesNoPayload, hfind] using hkeeps
            simpa using List.all_eq_true.mp hall j (List.mem_finRange j)
          refine hallocate.trans (accounts_of_balance (fun h => h.setPort fun _ _ => rfl)
            (by rfl) (by rfl) ?_)
          have hentries := entriesHold_setPort x { g with nextAddr := g.nextAddr + 1 } i
            (newPort src g.nextAddr onReceive onConnect onDisconnect)
          simp only [hempty, newPort, holds_none, Finset.sum_const_zero] at hentries
          simp only [owned, queuedTokens, waitingTokens, spent, newPort,
            Globals.sendQueue_setPort, Globals.senders_setPort, Globals.log_setPort] at hentries ⊢
          omega
      case h_2 => exact hallocate

theorem accounts_executeCmd {cmd : TcpPortCmd} {semaphore : Bool}
    (hkeeps : (∀ self other addr, cmd ≠ .close self other addr) →
      overwritesNoPayload g semaphore = true)
    (h : (executeCmd g cmd semaphore).final? = some g') : Accounts x g 0 g' 0 := by
  cases cmd with
  | createAndConnect self other addr onReceive onConnect onDisconnect =>
      have hcreate : Accounts x g 0 _ 0 :=
        accounts_create self onReceive onConnect onDisconnect (hkeeps (by simp))
      simp only [executeCmd, Outcome.final?_ignore, tcpConnectPortInternal] at h
      split at h
      · exact Option.some.inj h ▸ hcreate
      · have hqueued := (primitives_tcpEnqueueReliable rfl g' h).accounts x
        exact hcreate.trans ((accounts_setPort (by rfl)).trans hqueued)
  | createAndListen self onReceive onConnect onDisconnect =>
      have hcreate : Accounts x g 0 _ 0 :=
        accounts_create self onReceive onConnect onDisconnect (hkeeps (by simp))
      obtain rfl := Option.some.inj h
      unfold tcpListenPortInternal
      dsimp only
      split
      · exact hcreate
      · exact hcreate.trans (accounts_setPort (by rfl))
  | close self other addr =>
      simp only [executeCmd, Outcome.final?_ignore, tcpClosePortInternal] at h
      split at h
      · exact Option.some.inj h ▸ Accounts.refl x g 0
      · have hqueued := (primitives_tcpEnqueueReliable rfl g' h).accounts x
        exact (accounts_setPort (by rfl)).trans hqueued

/-- Requests leave the queue into the hand of `tcp_task`. -/
theorem accounts_dequeue {params : TcpTransmitParams} {rest : List TcpTransmitParams}
    (set : List QueueHandle) (hqueue : g.sendQueue = params :: rest) :
    Accounts x g 0 { g with queueSet := set, sendQueue := rest } (holds x params.data) := by
  refine accounts_of_balance id (by rfl) (by rfl) ?_
  have hcount : (queuedTokens g).count x = holds x params.data +
      (queuedTokens { g with queueSet := set, sendQueue := rest }).count x := by
    simp [queuedTokens, hqueue, holds]
  have hentries : entriesHold x { g with queueSet := set, sendQueue := rest } =
    entriesHold x g := rfl
  have hwaiting : waitingTokens { g with queueSet := set, sendQueue := rest } =
    waitingTokens g := rfl
  have hspent : spent x { g with queueSet := set, sendQueue := rest } = spent x g := rfl
  simp only [owned, hentries, hwaiting, hspent]
  omega

/-- An item that is no request leaves a queue. -/
theorem accounts_selectInput (h : ∀ params, (selectInput g).2 ≠ .send params) :
    Accounts x g 0 (selectInput g).1 0 := by
  unfold selectInput at h ⊢
  split
  case h_1 => exact Accounts.refl x g 0
  case h_2 set hset =>
      simp only [hset] at h
      split
      case h_1 => exact accounts_of_eq (fun _ => rfl) rfl rfl rfl le_rfl
      case h_2 params rest hqueue => exact absurd (by simp [hqueue]) (h params)
  all_goals
    split <;> exact accounts_of_eq (fun _ => rfl) rfl rfl rfl le_rfl

theorem accounts_tcpTask {env : TaskEnv} (hidle : IdleEmpty s.g)
    (hkeeps : keepsOwners s (.tcpTask env) = true) (h : step s (.tcpTask env) = some s') :
    Accounts x s.g 0 s'.g 0 := by
  have hfinal := step_task_final h
  unfold tcpTaskIteration at hfinal
  cases hin : (selectInput s.g).2 with
  | scan =>
      rw [hin, selectInput_scan hin] at hfinal
      simp only [executeInput, Outcome.final?, Option.some.injEq] at hfinal
      rw [← hfinal]
      apply accounts_scanTimeouts
      intro p j
      simp only [keepsOwners, hin] at hkeeps
      exact List.all_eq_true.mp (List.all_eq_true.mp hkeeps p (List.mem_finRange p)) j
        (List.mem_finRange j)
  | send params =>
      obtain ⟨set, rest, hqueue, hselect⟩ := selectInput_send hin
      rw [hin, hselect] at hfinal
      simp only [keepsOwners, hin] at hkeeps
      simp only [executeInput, Outcome.final?, Option.some.injEq] at hfinal
      rw [← hfinal]
      exact (accounts_dequeue set hqueue).trans (accounts_executeSend hidle hkeeps)
  | segment seg =>
      rw [hin] at hfinal
      exact (accounts_selectInput (by simp [hin])).trans
        ((primitives_inputTcpInternal _ hfinal).accounts x)
  | cmd cmd =>
      rw [hin] at hfinal
      refine (accounts_selectInput (by simp [hin])).trans (accounts_executeCmd (fun hopen => ?_) hfinal)
      have hports : findUnusedPort (selectInput s.g).1 = findUnusedPort s.g := by
        simp only [findUnusedPort, selectInput_ports]
      rw [overwritesNoPayload, hports, selectInput_ports]
      simp only [keepsOwners, hin] at hkeeps
      cases cmd with
      | createAndConnect | createAndListen => exact hkeeps
      | close self other addr => exact absurd rfl (hopen self other addr)
  | nothing =>
      rw [hin] at hfinal
      simp only [executeInput, Outcome.final?, Option.some.injEq] at hfinal
      rw [← hfinal]
      exact accounts_selectInput (by simp [hin])

/-! ### Calls of the application and waiting tasks -/

theorem count_flatMap_eraseIdx {ts : List Sender} {k : Nat} {t : Sender} (ht : ts[k]? = some t) :
    ((ts.eraseIdx k).flatMap fun t => tokens t.params.data).count x + holds x t.params.data =
      (ts.flatMap fun t => tokens t.params.data).count x := by
  induction ts generalizing k with
  | nil => simp at ht
  | cons u ts ih =>
      cases k with
      | zero =>
          obtain rfl := Option.some.inj ht
          simp [holds, Nat.add_comm]
      | succ k =>
          have := ih (by simpa using ht)
          simp only [List.eraseIdx_cons_succ, List.flatMap_cons, List.count_append]
          omega

/-- A task that waited runs with its payload in its hand. -/
theorem accounts_dropSender {k : Nat} {t : Sender} (ht : g.senders[k]? = some t) :
    Accounts x g 0 (dropSender g k) (holds x t.params.data) := by
  refine accounts_of_balance id (by rfl) (by rfl) ?_
  have hcount := count_flatMap_eraseIdx (x := x) ht
  simp only [owned, queuedTokens, waitingTokens, spent, entriesHold, dropSender]
  omega

theorem accounts_waitAgain {k : Nat} {t : Sender} (ht : g.senders[k]? = some t) :
    Accounts x g 0 { g with senders := g.senders.set k { t with ready := false } } 0 := by
  refine accounts_of_eq (fun _ => rfl) rfl ?_ rfl le_rfl
  have hsame : ∀ (ts : List Sender) (k : Nat), ts[k]? = some t →
      (ts.set k { t with ready := false }).flatMap (fun t => tokens t.params.data) =
        ts.flatMap fun t => tokens t.params.data := by
    intro ts
    induction ts with
    | nil => exact fun k h => rfl
    | cons u ts ih =>
        intro k h
        cases k with
        | zero =>
            obtain rfl := Option.some.inj h
            rfl
        | succ k => simp only [List.set_cons_succ, List.flatMap_cons, ih k (by simpa using h)]
  simp only [waitingTokens, hsame g.senders k ht]

theorem accounts_resumeSender {k : Nat} {deletedTake : Bool}
    (h : resumeSender g k deletedTake = some g') : Accounts x g 0 g' 0 := by
  unfold resumeSender at h
  split at h
  case h_1 => cases h
  case h_2 t ht =>
      have hdrop := accounts_dropSender (x := x) ht
      have hqueue : ∀ g₁, Accounts x g₁ (holds x t.params.data)
          (enqueueTaken g₁ t.port t.handle t.params).1 0 := fun g₁ =>
        (primitives_enqueueTaken g₁ t.port t.handle t.params).accounts x
      have hstale : (if deletedTake then
          some (enqueueTaken (dropSender g k) t.port t.handle t.params).1
          else some ((dropSender g k).free t.params.data)) = some g' → Accounts x g 0 g' 0 := by
        intro hg'
        split at hg'
        · exact Option.some.inj hg' ▸ hdrop.trans (hqueue _)
        · exact Option.some.inj hg' ▸ hdrop.trans (accounts_free _)
      split at h
      case isTrue => cases h
      split at h
      case h_1 sem hsem =>
          split at h
          case isTrue =>
              split at h
              case h_1 sem' htake =>
                  obtain rfl := Option.some.inj h
                  have htaken : Accounts x (dropSender g k) (holds x t.params.data) _ _ :=
                    accounts_setPort (i := t.port)
                      (p := { g.ports t.port with unackedSlots := some sem' }) rfl
                  exact hdrop.trans (htaken.trans (hqueue _))
              case h_2 =>
                  obtain rfl := Option.some.inj h
                  exact accounts_waitAgain ht
          case isFalse => exact hstale h
      case h_2 => exact hstale h

theorem accounts_timeoutSender {k : Nat} (h : timeoutSender g k = some g') :
    Accounts x g 0 g' 0 := by
  unfold timeoutSender at h
  split at h
  case h_1 => cases h
  case h_2 t ht =>
      split at h
      · cases h
      · exact Option.some.inj h ▸ (accounts_dropSender ht).trans (accounts_free _)

theorem accounts_addSender {i : PortIdx} {params : TcpTransmitParams} {timeout : BitVec 32}
    (h : addSender g i params timeout = .done g' ()) :
    Accounts x g (holds x params.data) g' 0 := by
  unfold addSender at h
  split at h
  case h_1 sem _ =>
      obtain ⟨rfl, -⟩ := Outcome.done.inj h
      refine accounts_of_balance id (by rfl) (by rfl) ?_
      simp [owned, queuedTokens, waitingTokens, spent, entriesHold, holds]
      omega
  case h_2 => cases h

/-- A call of `tcp_send` frees the payload or queues it, or has not done anything yet. -/
theorem accounts_tcpSend (src dst : BitVec 16) (addr : Ipv4Addr) (block : Option Block)
    (len : BitVec 16) (timeout : BitVec 32) :
    (∀ g' r, tcpSend g src dst addr block len timeout = .done g' r →
        Accounts x g (holds x block) g' 0) ∧
      ∀ g' on, tcpSend g src dst addr block len timeout = .blocked g' on →
        g' = g ∧ ∃ i, on = .slots i := by
  unfold tcpSend
  constructor
  · intro g' r h
    split at h
    · obtain ⟨rfl, -⟩ := Outcome.done.inj h
      exact accounts_free block
    · exact (tcpEnqueueReliable_primitives h).accounts x
  · intro g' on h
    split at h
    · cases h
    · obtain ⟨hsame, i, -, -, -, -, hon⟩ := tcpEnqueueReliable_blocked h
      exact ⟨hsame, i, hon⟩

/-- A call of `tcp_send` that returns has let go of the payload, one that makes `tcp_task` wait
    still holds it. -/
theorem accounts_callTcpSend (g' : Globals) (inCallback : Bool) (src dst : BitVec 16) (addr : Ipv4Addr)
    (data : Option Memory) (len : BitVec 16) (timeout : BitVec 32) :
    (callTcpSend g inCallback src dst addr data len timeout = .done g' () →
        Accounts x { g with nextAddr := g.nextAddr + 1 }
          (holds x (data.map fun bytes => ⟨g.nextAddr, bytes⟩)) g' 0) ∧
      ∀ on, callTcpSend g inCallback src dst addr data len timeout = .blocked g' on →
        inCallback = true ∧ g' = { g with nextAddr := g.nextAddr + 1 } := by
  unfold callTcpSend
  dsimp only
  generalize hg₁ : ({ g with nextAddr := g.nextAddr + 1 } : Globals) = g₁
  obtain ⟨hdone, hblocked⟩ := accounts_tcpSend (x := x) (g := g₁) src dst addr
    (data.map fun bytes => ⟨g.nextAddr, bytes⟩) len timeout
  cases hsend : tcpSend g₁ src dst addr (data.map fun bytes => ⟨g.nextAddr, bytes⟩) len
    timeout with
  | done g₂ r =>
      refine ⟨fun h => ?_, fun on h => by cases h⟩
      obtain ⟨rfl, -⟩ := Outcome.done.inj h
      exact hdone g₂ r hsend
  | blocked g₂ on =>
      obtain ⟨rfl, i, rfl⟩ := hblocked g₂ on hsend
      dsimp only
      constructor
      · intro h
        split_ifs at h
        · exact accounts_addSender h
        · obtain ⟨rfl, -⟩ := Outcome.done.inj h
          exact accounts_free _
      · intro on h
        split_ifs at h
        · unfold addSender at h
          split at h <;> cases h
        case pos hcallback _ => exact ⟨by simpa using hcallback, (Outcome.blocked.inj h).1.symm⟩
  | undefined =>
      refine ⟨fun h => ?_, fun on h => ?_⟩ <;> cases h

/-- The accounts of a step for the token `x`: what is created at the step is held by the component
    or by the waiting caller, or has been freed or handed on. -/
structure StepAccounts (x : Nat) (s : System) (a : Action) (s' : System) : Prop where
  balance : owned x s'.g + spent x s'.g + (heldByCaller s a s').count x + born x s.g =
    owned x s.g + spent x s.g + (payloadOf s a).count x + born x s'.g
  nextAddr : s.g.nextAddr ≤ s'.g.nextAddr
  fresh : (payloadOf s a).count x + born x s'.g ≤
    born x s.g + if s.g.nextAddr ≤ x ∧ x < s'.g.nextAddr then 1 else 0
  idle : IdleEmpty s'.g

theorem Accounts.step (hidle : IdleEmpty s.g) (h : Accounts x s.g 0 s'.g 0)
    (hnone : payloadOf s a = []) : StepAccounts x s a s' := by
  have hheld : heldByCaller s a s' = [] := by
    unfold heldByCaller
    split
    · rfl
    · exact hnone
  obtain ⟨hbalance, hnext, hborn, hidle'⟩ := h
  refine ⟨?_, hnext, ?_, hidle' hidle⟩ <;> rw [hnone]
  · rw [hheld]
    exact hbalance
  · simpa using hborn

/-- A call of `tcp_send` allocates the next block. -/
theorem step_accounts_tcpSend {inCallback : Bool} {src dst : BitVec 16} {addr : Ipv4Addr}
    {data : Option Memory} {len : BitVec 16} {timeout : BitVec 32} (hidle : IdleEmpty s.g)
    (h : step s (.tcpSend inCallback src dst addr data len timeout) = some s') :
    StepAccounts x s (.tcpSend inCallback src dst addr data len timeout) s' := by
  generalize hallocated : ({ s.g with nextAddr := s.g.nextAddr + 1 } : Globals) = allocated
  have hpayload : (payloadOf s (.tcpSend inCallback src dst addr data len timeout)).count x =
      holds x (data.map fun bytes => ⟨s.g.nextAddr, bytes⟩) := by
    cases data <;> rfl
  have hsmall : holds x (data.map fun bytes => (⟨s.g.nextAddr, bytes⟩ : Block)) ≤
      if s.g.nextAddr = x then 1 else 0 := by
    cases data with
    | none => exact Nat.zero_le _
    | some bytes => exact (holds_some x ⟨s.g.nextAddr, bytes⟩).le
  have hsame : owned x allocated = owned x s.g ∧ spent x allocated = spent x s.g ∧
      born x allocated = born x s.g ∧ allocated.nextAddr = s.g.nextAddr + 1 := by
    subst hallocated
    exact ⟨rfl, rfl, rfl, rfl⟩
  have hidle' : IdleEmpty allocated := by
    subst hallocated
    exact hidle
  obtain ⟨hdone, hblocked⟩ := accounts_callTcpSend (x := x) (g := s.g) s'.g inCallback src dst addr
    data len timeout
  rw [hallocated] at hdone hblocked
  simp only [step] at h
  split_ifs at h with hbusy
  split at h
  case h_1 g' hcall =>
      obtain rfl := Option.some.inj h
      obtain ⟨hbalance, hnext, hborn, hkept⟩ := hdone hcall
      have hheld : heldByCaller s (.tcpSend inCallback src dst addr data len timeout)
          { s with g := g' } = [] := by simp [heldByCaller]
      refine ⟨?_, ?_, ?_, hkept hidle'⟩
      · rw [hheld, hpayload, List.count_nil]
        omega
      · omega
      · rw [hpayload]
        split_ifs at hborn hsmall ⊢ <;> omega
  case h_2 g' on hcall =>
      obtain rfl := Option.some.inj h
      obtain ⟨hcallback, hg'⟩ := hblocked on hcall
      obtain rfl : g' = allocated := hg'
      have hrunning : s.tcpTask = .running := by simpa [hcallback] using hbusy
      have hheld : heldByCaller s (.tcpSend inCallback src dst addr data len timeout)
          ⟨g', .blocked on⟩ = payloadOf s (.tcpSend inCallback src dst addr data len timeout) := by
        simp [heldByCaller, hrunning]
      refine ⟨?_, ?_, ?_, hidle'⟩
      · rw [hheld]
        dsimp only
        omega
      · dsimp only
        omega
      · rw [hpayload]
        dsimp only
        split_ifs at hsmall ⊢ <;> omega
  case h_3 => cases h

/-- A step that keeps its owners accounts for every token. -/
theorem step_accounts (hidle : IdleEmpty s.g) (hkeeps : keepsOwners s a = true)
    (h : step s a = some s') (x : Nat) : StepAccounts x s a s' := by
  have hsame : ∀ g' : Globals, g'.ports = s.g.ports → g'.sendQueue = s.g.sendQueue →
      g'.senders = s.g.senders → g'.log = s.g.log → g'.nextAddr = s.g.nextAddr →
      Accounts x s.g 0 g' 0 := fun g' hports hqueue hsenders hlog hnext =>
    accounts_of_eq (by simp [hports]) hqueue (by simp [waitingTokens, hsenders]) hlog hnext.ge
  have hcmd : ∀ cmd, Accounts x s.g 0 (sendPortCmd s.g cmd).1 0 := by
    intro cmd
    unfold sendPortCmd
    split
    · exact hsame _ rfl rfl rfl rfl rfl
    · exact Accounts.refl x s.g 0
  cases a with
  | tcpTask env => exact (accounts_tcpTask hidle hkeeps h).step hidle rfl
  | tcpSend inCallback src dst addr data len timeout => exact step_accounts_tcpSend hidle h
  | resumeSender k deletedTake =>
      obtain ⟨g', hg', rfl⟩ := Option.map_eq_some_iff.mp h
      exact Accounts.step hidle (accounts_resumeSender hg') rfl
  | timeoutSender k =>
      obtain ⟨g', hg', rfl⟩ := Option.map_eq_some_iff.mp h
      exact Accounts.step hidle (accounts_timeoutSender hg') rfl
  | tcpConnectPort | tcpListenPort | tcpClosePort =>
      obtain rfl := Option.some.inj h
      exact Accounts.step hidle (hcmd _) rfl
  | inputTcp buffer length src malloc =>
      obtain rfl := Option.some.inj h
      refine Accounts.step hidle ?_ rfl
      unfold inputTcp
      split
      · exact Accounts.refl x s.g 0
      · dsimp only
        split
        · exact hsame _ rfl rfl rfl rfl rfl
        · exact Accounts.refl x s.g 0
  | tick =>
      obtain rfl := Option.some.inj h
      exact Accounts.step hidle (hsame _ rfl rfl rfl rfl rfl) rfl

end Steps

end NetStack.Tcp
