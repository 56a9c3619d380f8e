import NetStack.Lib.QueueSet
import NetStack.Tcp.Proofs.Moves
import NetStack.Tcp.Proofs.Primitives
import NetStack.Tcp.Proofs.Scan

/-!
# The queue set of `tcp_task`

Each step of the component is one turn of its backlog: `tcp_task` selects at most one handle and
takes out at most one item, and whatever a step queues it queues in one member. The set has room
for its members together, so that it stays in sync with them.
-/

namespace NetStack.Tcp
open NetStack.Lib

instance : Fintype QueueHandle where
  elems := {.sendQueue, .inputQueue, .portCmdQueue}
  complete h := by cases h <;> decide

/-- The queue set of `tcp_task` and the items in its members. -/
def backlog (g : Globals) : Backlog QueueHandle where
  handles := g.queueSet
  waiting
    | .sendQueue => g.sendQueue.length
    | .inputQueue => g.inputQueue.length
    | .portCmdQueue => g.portCmdQueue.length

/-- The capacities of the members. -/
def memberLength : QueueHandle → Nat
  | .sendQueue => sendQueueLength
  | .inputQueue => inputQueueLength
  | .portCmdQueue => portCmdQueueLength

/-- The set is as long as its members together. -/
theorem sum_memberLength : ∑ h, memberLength h = queueSetLength := by decide

/-- Requests have been put into `send_queue`, and nothing else has changed in the queues. -/
def SendsPosted (g g' : Globals) : Prop :=
  Backlog.Posted queueSetLength .sendQueue (backlog g) (backlog g')

section Operations
variable {g g' : Globals} {params : TcpTransmitParams}

theorem SendsPosted.of_eq (h : backlog g' = backlog g) : SendsPosted g g' := by
  unfold SendsPosted
  rw [h]
  exact .refl _

theorem SendsPosted.trans {g'' : Globals} (h : SendsPosted g g') (h' : SendsPosted g' g'') :
    SendsPosted g g'' := Backlog.Posted.trans h h'

@[simp] theorem backlog_free (data : Option Block) : backlog (g.free data) = backlog g := by
  cases data <;> rfl

@[simp] theorem backlog_giveSlot (i : PortIdx) : backlog (giveSlot g i) = backlog g := by
  unfold giveSlot
  split
  · rfl
  · split <;> rfl

/-- A backlog told by the three queues. -/
theorem backlog_eq {b : Backlog QueueHandle} (hset : g.queueSet = b.handles)
    (hsend : g.sendQueue.length = b.waiting .sendQueue)
    (hinput : g.inputQueue.length = b.waiting .inputQueue)
    (hcmd : g.portCmdQueue.length = b.waiting .portCmdQueue) : backlog g = b := by
  apply Backlog.ext hset
  funext h
  cases h with
  | sendQueue => exact hsend
  | inputQueue => exact hinput
  | portCmdQueue => exact hcmd

theorem backlog_pushSend :
    backlog (g.pushSend params) = (backlog g).post queueSetLength .sendQueue :=
  backlog_eq rfl (by simp [Backlog.post, backlog]) rfl rfl

theorem Primitive.sendsPosted {a b : Holding} (h : Primitive a b) : SendsPosted a.1 b.1 := by
  cases h with
  | push params =>
      unfold SendsPosted
      rw [backlog_pushSend]
      exact .single _
  | give => exact .of_eq (backlog_giveSlot _)
  | free => exact .of_eq (backlog_free _)
  | field | emit | take | delete | clear => exact .of_eq rfl

theorem Primitives.sendsPosted {a b : Holding} (h : Primitives a b) : SendsPosted a.1 b.1 := by
  induction h with
  | refl => exact .of_eq rfl
  | tail _ h ih => exact ih.trans h.sendsPosted

theorem backlog_sendDatagram (i : PortIdx) (portSeqNum seqNum : BitVec 32) (addr : Nat)
    (heap : Memory) (ipv4Accepts : Bool) :
    backlog (sendDatagram g i params portSeqNum seqNum addr heap ipv4Accepts).1 = backlog g := by
  unfold sendDatagram sendIpv4Packet
  split
  · rfl
  · exact backlog_free _

/-- `tcp_send_internal` puts nothing into a queue of the component. -/
theorem backlog_tcpSendInternal (env : SendEnv) :
    backlog (tcpSendInternal g params env).1 = backlog g := by
  unfold tcpSendInternal
  split
  · exact backlog_free _
  · unfold sendAllocated
    dsimp only
    split
    · exact backlog_free _
    · split
      · split
        · exact backlog_free _
        · exact backlog_sendDatagram _ _ _ _ _ _
      · exact backlog_sendDatagram _ _ _ _ _ _

theorem backlog_retransmit (now : BitVec 32) (env : SendEnv) (p : PortIdx) (j : UnackedIdx) :
    backlog (retransmit now env p j g) = backlog g := by
  unfold retransmit
  dsimp only
  split
  · exact backlog_tcpSendInternal env
  · rw [backlog_giveSlot]
    exact backlog_tcpSendInternal env

theorem sendsPosted_scanTimeouts (env : PortIdx → UnackedIdx → SendEnv) :
    SendsPosted g (scanTimeouts g env) :=
  scanTimeouts_related (fun _ => .of_eq rfl) SendsPosted.trans
    (fun g' p _ => (primitives_tcpResetPort g' p).sendsPosted)
    fun _ _ _ _ => .of_eq (backlog_retransmit _ _ _ _)

theorem backlog_executeSend (env : SendEnv) : backlog (executeSend g params env) = backlog g := by
  unfold executeSend
  dsimp only
  split
  · exact backlog_tcpSendInternal env
  · exact backlog_tcpSendInternal env

theorem backlog_tcpCreatePortInternal (src : BitVec 16)
    (onReceive onConnect onDisconnect : Option FnPtr) (semaphore : Bool) :
    backlog (tcpCreatePortInternal g src onReceive onConnect onDisconnect semaphore).1 =
      backlog g := by
  unfold tcpCreatePortInternal
  split
  · dsimp only
    split <;> rfl
  · rfl

theorem sendsPosted_executeCmd {cmd : TcpPortCmd} {semaphore : Bool}
    (h : (executeCmd g cmd semaphore).final? = some g') : SendsPosted g g' := by
  cases cmd with
  | createAndConnect self other addr onReceive onConnect onDisconnect =>
      have hcreate := backlog_tcpCreatePortInternal (g := g) self onReceive onConnect onDisconnect
        semaphore
      simp only [executeCmd, Outcome.final?_ignore, tcpConnectPortInternal] at h
      split at h
      · exact Option.some.inj h ▸ .of_eq hcreate
      · have hqueued := (primitives_tcpEnqueueReliable rfl g' h).sendsPosted
        exact (SendsPosted.of_eq hcreate).trans hqueued
  | createAndListen self onReceive onConnect onDisconnect =>
      have hcreate := backlog_tcpCreatePortInternal (g := g) self onReceive onConnect onDisconnect
        semaphore
      obtain rfl := Option.some.inj h
      unfold tcpListenPortInternal
      dsimp only
      split
      · exact .of_eq hcreate
      · exact .of_eq hcreate
  | close self other addr =>
      simp only [executeCmd, Outcome.final?_ignore, tcpClosePortInternal] at h
      split at h
      · exact Option.some.inj h ▸ .of_eq rfl
      · exact (primitives_tcpEnqueueReliable rfl g' h).sendsPosted

/-- One item leaves the queue that the oldest handle names. -/
theorem backlog_selectInput : backlog (selectInput g).1 = (backlog g).select := by
  have hselect : ∀ {handle set}, g.queueSet = handle :: set → ∀ g₁ : Globals,
      g₁.queueSet = set →
      (∀ h, (backlog g₁).waiting h = Function.update (backlog g).waiting handle
        ((backlog g).waiting handle - 1) h) → backlog g₁ = (backlog g).select := by
    intro handle set hset g₁ hset₁ hwaiting
    have hselect : (backlog g).select = ⟨set, Function.update (backlog g).waiting handle
        ((backlog g).waiting handle - 1)⟩ := Backlog.select_cons hset
    rw [hselect, ← funext hwaiting, ← hset₁]
    rfl
  unfold selectInput
  split
  case h_1 hset => exact (Backlog.select_nil hset).symm
  all_goals
    rename_i set hset
    split <;>
      · apply hselect hset _ rfl
        intro h
        cases h <;> simp [backlog, *]

theorem sendsPosted_executeInput {input : TaskInput} {env : TaskEnv}
    (h : (executeInput g input env).final? = some g') : SendsPosted g g' := by
  cases input with
  | scan => exact Option.some.inj h ▸ sendsPosted_scanTimeouts _
  | send params => exact Option.some.inj h ▸ .of_eq (backlog_executeSend _)
  | segment seg => exact (primitives_inputTcpInternal g' h).sendsPosted
  | cmd cmd => exact sendsPosted_executeCmd h
  | nothing => exact Option.some.inj h ▸ .of_eq rfl

theorem sendsPosted_callTcpSend {inCallback : Bool} {src dst : BitVec 16} {addr : Ipv4Addr}
    {data : Option Memory} {len : BitVec 16} {timeout : BitVec 32}
    (h : (callTcpSend g inCallback src dst addr data len timeout).final? = some g') :
    SendsPosted g g' := by
  unfold callTcpSend at h
  dsimp only at h
  generalize hallocated : ({ g with nextAddr := g.nextAddr + 1 } : Globals) = allocated at h
  have hstart : SendsPosted g allocated := by
    subst hallocated
    exact .of_eq rfl
  apply hstart.trans
  generalize (data.map fun bytes => (⟨g.nextAddr, bytes⟩ : Block)) = block at h
  unfold tcpSend at h
  cases hfind : findPort allocated src dst addr with
  | none =>
      simp only [hfind] at h
      exact Option.some.inj h ▸ .of_eq (backlog_free _)
  | some i =>
      simp only [hfind] at h
      split at h
      case h_1 g₁ r hdone =>
          obtain rfl := Option.some.inj h
          exact (tcpEnqueueReliable_primitives hdone).sendsPosted
      case h_2 g₁ k hblocked =>
          obtain ⟨rfl, -⟩ := tcpEnqueueReliable_blocked hblocked
          split_ifs at h
          · unfold addSender at h
            split at h
            · exact Option.some.inj h ▸ .of_eq rfl
            · cases h
          · exact Option.some.inj h ▸ .of_eq rfl
          · exact Option.some.inj h ▸ .of_eq (backlog_free _)
      case h_3 g₁ r _ hblocked =>
          obtain ⟨rfl, -⟩ := tcpEnqueueReliable_blocked hblocked
          exact Option.some.inj h ▸ .of_eq rfl
      case h_4 => cases h

theorem sendsPosted_resumeSender {k : Nat} {deletedTake : Bool}
    (h : resumeSender g k deletedTake = some g') : SendsPosted g g' := by
  have hqueue : ∀ (g₁ : Globals) (t : Sender), backlog g₁ = backlog g →
      SendsPosted g (enqueueTaken g₁ t.port t.handle t.params).1 := fun g₁ t hsame =>
    (SendsPosted.of_eq hsame).trans (primitives_enqueueTaken g₁ t.port t.handle t.params).sendsPosted
  unfold resumeSender at h
  split at h
  case h_1 => cases h
  case h_2 t _ =>
      have hstale : (if deletedTake then
          some (enqueueTaken (dropSender g k) t.port t.handle t.params).1
          else some ((dropSender g k).free t.params.data)) = some g' → SendsPosted g g' := by
        intro hg'
        split at hg'
        · exact Option.some.inj hg' ▸ hqueue _ t rfl
        · exact Option.some.inj hg' ▸ .of_eq (backlog_free _)
      split at h
      case isTrue => cases h
      split at h
      case h_1 sem _ =>
          split at h
          case isTrue =>
              split at h
              case h_1 => exact Option.some.inj h ▸ hqueue _ t rfl
              case h_2 => exact Option.some.inj h ▸ .of_eq rfl
          case isFalse => exact hstale h
      case h_2 => exact hstale h

theorem backlog_timeoutSender {k : Nat} (h : timeoutSender g k = some g') :
    backlog g' = backlog g := by
  unfold timeoutSender at h
  split at h
  case h_1 => cases h
  case h_2 =>
      split at h
      · cases h
      · exact Option.some.inj h ▸ backlog_free _

end Operations

section Steps
variable {s s' : System} {a : Action}

/-- One turn of the backlog: what it posts goes into `h`, which does not grow beyond its capacity
    unless it is `send_queue`. -/
structure Serves (h : QueueHandle) (g g' : Globals) : Prop where
  turn : Backlog.Turn queueSetLength h (backlog g) (backlog g')
  fits : h = .sendQueue ∨ (backlog g').waiting h ≤ max ((backlog g).waiting h) (memberLength h)

theorem SendsPosted.serves {g g' : Globals} (h : SendsPosted g g') : Serves .sendQueue g g' :=
  ⟨.inl h, .inl rfl⟩

/-- One item is queued where there is room. -/
theorem serves_of_queued {g g' : Globals} {h : QueueHandle}
    (hpost : backlog g' = (backlog g).post queueSetLength h)
    (hroom : (backlog g).waiting h < memberLength h) : Serves h g g' := by
  constructor
  · exact .inl ⟨1, hpost⟩
  · apply Or.inr
    rw [hpost, Backlog.waiting_post_self]
    exact le_max_of_le_right hroom

theorem serves_sendPortCmd (g : Globals) (cmd : TcpPortCmd) :
    Serves .portCmdQueue g (sendPortCmd g cmd).1 := by
  unfold sendPortCmd
  split
  case h_1 queue hsend =>
      obtain ⟨hroom, rfl⟩ := queueSend_eq_some_iff.mp hsend
      exact serves_of_queued (backlog_eq rfl rfl rfl (by simp [Backlog.post, backlog])) hroom
  case h_2 => exact ⟨.inl (.refl _), .inr (le_max_left _ _)⟩

theorem serves_inputTcp (g : Globals) (buffer : Memory) (length : BitVec 16)
    (srcIpv4Addr : Ipv4Addr) (malloc : Option Memory) :
    Serves .inputQueue g (inputTcp g buffer length srcIpv4Addr malloc).1 := by
  unfold inputTcp
  split
  case h_1 => exact ⟨.inl (.refl _), .inr (le_max_left _ _)⟩
  case h_2 =>
      dsimp only
      split
      case h_1 queue hsend =>
          obtain ⟨hroom, rfl⟩ := queueSend_eq_some_iff.mp hsend
          exact serves_of_queued (backlog_eq rfl rfl (by simp [Backlog.post, backlog]) rfl) hroom
      case h_2 => exact ⟨.inl (.refl _), .inr (le_max_left _ _)⟩

/-- Each step is one turn of the backlog. -/
theorem step_serves (h : step s a = some s') : ∃ handle, Serves handle s.g s'.g := by
  cases a with
  | tcpTask env =>
      have hposted := sendsPosted_executeInput (step_task_final h)
      refine ⟨.sendQueue, .inr ?_, .inl rfl⟩
      rw [← backlog_selectInput]
      exact hposted
  | tcpSend inCallback src dst addr data len timeout =>
      exact ⟨.sendQueue, (sendsPosted_callTcpSend (step_tcpSend_final h)).serves⟩
  | resumeSender k deletedTake =>
      obtain ⟨g', hg', rfl⟩ := Option.map_eq_some_iff.mp h
      exact ⟨.sendQueue, (sendsPosted_resumeSender hg').serves⟩
  | timeoutSender k =>
      obtain ⟨g', hg', rfl⟩ := Option.map_eq_some_iff.mp h
      exact ⟨.sendQueue, (SendsPosted.of_eq (backlog_timeoutSender hg')).serves⟩
  | tcpConnectPort | tcpListenPort | tcpClosePort =>
      obtain rfl := Option.some.inj h
      exact ⟨.portCmdQueue, serves_sendPortCmd _ _⟩
  | inputTcp buffer length src malloc =>
      obtain rfl := Option.some.inj h
      exact ⟨.inputQueue, serves_inputTcp _ _ _ _ _⟩
  | tick =>
      obtain rfl := Option.some.inj h
      exact ⟨.sendQueue, SendsPosted.serves (.of_eq (by rfl))⟩

/-- `send_queue` never holds more than its capacity. -/
theorem sendQueue_fits {net : NetContext} (hreach : Reachable step (boot net) s) :
    s.g.sendQueue.length ≤ sendQueueLength := by
  obtain ⟨as, hrun⟩ := hreach
  refine moves_invariant (P := fun g => g.sendQueue.length ≤ sendQueueLength)
    (C := fun _ _ => True) (Nat.zero_le _) (fun halike h => by rwa [halike.sendQueue])
    (fun s a s' g g' _ _ _ hmove h => ?_) (guarded_true _ as) hrun
  -- a reliable request is queued only if there is room for it
  have hqueues : ∀ {B : Prop} {g₁ : Globals} {params : TcpTransmitParams}
      {items : List TcpTransmitParams}, Queues B g₁ params items → g₁.sendQueue = g.sendQueue →
      (g.sendQueue ++ items).length ≤ sendQueueLength := by
    intro B g₁ params items hitems hsame
    cases hitems with
    | queued _ _ _ hroom =>
        rw [hsame] at hroom
        simpa [Nat.succ_le_iff] using hroom
    | unfound | refused => simpa using h
  cases hmove with
  | push _ _ hroom => simpa [Nat.succ_le_iff] using hroom
  | drop _ _ _ hqueue | pass _ _ _ hqueue | record _ _ _ hqueue =>
      rw [hqueue, List.length_cons] at h
      exact (Nat.le_succ _).trans h
  | takeOver _ _ _ _ hitems => exact hqueues hitems rfl
  | finReply _ _ _ _ hitems => exact hqueues hitems rfl
  | close _ _ _ hitems => exact hqueues hitems rfl
  | connect _ _ _ _ hitems => exact hqueues hitems rfl
  | stay | wait | resend | reset | establish | finWait2 | timeWait | listen => exact h

/-- The queues of `tcp_task` are within their capacities and its set is in sync with them. -/
theorem inSync_of_reachable {net : NetContext} (hreach : Reachable step (boot net) s) :
    (∀ h, (backlog s.g).waiting h ≤ memberLength h) ∧ (backlog s.g).InSync := by
  obtain ⟨as, hrun⟩ := hreach
  induction as using List.reverseRecOn generalizing s with
  | nil =>
      obtain rfl := Option.some.inj hrun
      exact ⟨fun h => by cases h <;> exact Nat.zero_le _, fun h => by cases h <;> rfl⟩
  | append_singleton as a ih =>
      obtain ⟨t, ht, hstep⟩ := run_snoc hrun
      obtain ⟨hfits, hsync⟩ := ih ht
      obtain ⟨handle, hturn, hgrows⟩ := step_serves hstep
      refine hturn.keeps sum_memberLength.le ?_ hfits hsync
      rcases hgrows with rfl | hmax
      · exact le_max_of_le_right (sendQueue_fits ⟨_, hrun⟩)
      · exact hmax

end Steps

end NetStack.Tcp
