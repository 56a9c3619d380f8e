import NetStack.Lib.Service
import NetStack.Tcp.Proofs.QueueSet

/-!
# Where segments come from

`input_queue` is filled by `input_tcp` and emptied by `tcp_task`, and nothing else touches it.
What holds of every segment that is handed to `input_tcp` holds of every segment that the
component works on.
-/

namespace NetStack.Tcp
open NetStack.Lib

/-- Nothing has been taken out of the queues, and nothing has been put into another one than
    `send_queue`. -/
structure Feeds (g g' : Globals) : Prop where
  selfNet : g'.selfNet = g.selfNet
  inputQueue : g'.inputQueue = g.inputQueue
  portCmdQueue : g'.portCmdQueue = g.portCmdQueue
  sendQueue : g.sendQueue <+: g'.sendQueue
  queueSet : g.queueSet <+: g'.queueSet

section Feeds
variable {g g' : Globals} {params : TcpTransmitParams}

theorem Feeds.refl (g : Globals) : Feeds g g := ⟨rfl, rfl, rfl, List.prefix_rfl, List.prefix_rfl⟩

theorem Feeds.trans {g'' : Globals} (h : Feeds g g') (h' : Feeds g' g'') : Feeds g g'' :=
  ⟨h'.selfNet.trans h.selfNet, h'.inputQueue.trans h.inputQueue,
    h'.portCmdQueue.trans h.portCmdQueue, h.sendQueue.trans h'.sendQueue,
    h.queueSet.trans h'.queueSet⟩

/-- What touches no queue. -/
theorem Feeds.of_same (hnet : g'.selfNet = g.selfNet) (hinput : g'.inputQueue = g.inputQueue)
    (hcmd : g'.portCmdQueue = g.portCmdQueue) (hsend : g'.sendQueue = g.sendQueue)
    (hset : g'.queueSet = g.queueSet) : Feeds g g' :=
  ⟨hnet, hinput, hcmd, hsend ▸ List.prefix_rfl, hset ▸ List.prefix_rfl⟩

theorem feeds_free (g : Globals) (data : Option Block) : Feeds g (g.free data) := by
  cases data <;> exact .of_same rfl rfl rfl rfl rfl

theorem feeds_giveSlot (g : Globals) (i : PortIdx) : Feeds g (giveSlot g i) := by
  unfold giveSlot
  split
  · exact .refl g
  · split <;> exact .of_same rfl rfl rfl rfl rfl

theorem feeds_pushSend (g : Globals) (params : TcpTransmitParams) : Feeds g (g.pushSend params) :=
  ⟨rfl, rfl, rfl, List.prefix_append _ _, Stock.setPost_grows _ _ _⟩

theorem Primitive.feeds {a b : Holding} (h : Primitive a b) : Feeds a.1 b.1 := by
  cases h with
  | give => exact feeds_giveSlot _ _
  | free => exact feeds_free _ _
  | push => exact feeds_pushSend _ _
  | field | emit | take | delete | clear => exact .of_same rfl rfl rfl rfl rfl

theorem Primitives.feeds {a b : Holding} (h : Primitives a b) : Feeds a.1 b.1 := by
  induction h with
  | refl => exact .refl _
  | tail _ h ih => exact ih.trans h.feeds

theorem feeds_sendDatagram (i : PortIdx) (portSeqNum seqNum : BitVec 32) (addr : Nat)
    (heap : Memory) (ipv4Accepts : Bool) :
    Feeds g (sendDatagram g i params portSeqNum seqNum addr heap ipv4Accepts).1 := by
  unfold sendDatagram sendIpv4Packet
  split
  · exact .of_same rfl rfl rfl rfl rfl
  · dsimp only
    refine Feeds.trans ?_ (feeds_free _ _)
    exact .of_same rfl rfl rfl rfl rfl

theorem feeds_sendAllocated (addr : Nat) (heap : Memory) (ipv4Accepts : Bool) :
    Feeds g (sendAllocated g params addr heap ipv4Accepts).1 := by
  have hrefused : ∀ w, Feeds g ((g.free params.data).warn w) := fun _ =>
    (feeds_free g params.data).trans (.of_same rfl rfl rfl rfl rfl)
  unfold sendAllocated
  dsimp only
  split
  · exact hrefused _
  · split
    · split
      · exact hrefused _
      · refine Feeds.trans ?_ (feeds_sendDatagram _ _ _ _ _ _)
        exact .of_same rfl rfl rfl rfl rfl
    · exact feeds_sendDatagram _ _ _ _ _ _

theorem feeds_tcpSendInternal (params : TcpTransmitParams) (env : SendEnv) :
    Feeds g (tcpSendInternal g params env).1 := by
  unfold tcpSendInternal
  split
  · exact (feeds_free g params.data).trans (.of_same rfl rfl rfl rfl rfl)
  · refine Feeds.trans ?_ (feeds_sendAllocated _ _ _)
    exact .of_same rfl rfl rfl rfl rfl

theorem feeds_retransmit (now : BitVec 32) (env : SendEnv) (p : PortIdx) (j : UnackedIdx) :
    Feeds g (retransmit now env p j g) := by
  have htouched : Feeds g
      (g.setUnacked p j { (g.ports p).unacked j with sentAt := now }) :=
    .of_same rfl rfl rfl rfl rfl
  have hsent := htouched.trans
    (feeds_tcpSendInternal (retransmitParams (g.ports p) ((g.ports p).unacked j)) env)
  unfold retransmit
  dsimp only
  split
  · exact hsent
  · refine Feeds.trans ?_ (feeds_giveSlot _ p)
    exact hsent.trans (.of_same rfl rfl rfl rfl rfl)

theorem feeds_scanTimeouts (env : PortIdx → UnackedIdx → SendEnv) :
    Feeds g (scanTimeouts g env) :=
  scanTimeouts_related Feeds.refl Feeds.trans
    (fun g' p _ => (primitives_tcpResetPort g' p).feeds) fun _ _ _ _ => feeds_retransmit _ _ _ _

theorem feeds_tcpCreatePortInternal (src : BitVec 16)
    (onReceive onConnect onDisconnect : Option FnPtr) (semaphore : Bool) :
    Feeds g (tcpCreatePortInternal g src onReceive onConnect onDisconnect semaphore).1 := by
  unfold tcpCreatePortInternal
  split
  · dsimp only
    split <;> exact .of_same rfl rfl rfl rfl rfl
  · exact .of_same rfl rfl rfl rfl rfl

theorem feeds_executeCmd {cmd : TcpPortCmd} {semaphore : Bool}
    (h : (executeCmd g cmd semaphore).final? = some g') : Feeds g g' := by
  cases cmd with
  | createAndConnect self other addr onReceive onConnect onDisconnect =>
      have hcreate := feeds_tcpCreatePortInternal (g := g) self onReceive onConnect onDisconnect
        semaphore
      simp only [executeCmd, Outcome.final?_ignore, tcpConnectPortInternal] at h
      split at h
      · exact Option.some.inj h ▸ hcreate
      · refine hcreate.trans (.trans ?_ (primitives_tcpEnqueueReliable rfl g' h).feeds)
        exact .of_same rfl rfl rfl rfl rfl
  | createAndListen self onReceive onConnect onDisconnect =>
      have hcreate := feeds_tcpCreatePortInternal (g := g) self onReceive onConnect onDisconnect
        semaphore
      obtain rfl := Option.some.inj h
      unfold tcpListenPortInternal
      dsimp only
      split
      · exact hcreate
      · exact hcreate.trans (.of_same rfl rfl rfl rfl rfl)
  | close self other addr =>
      simp only [executeCmd, Outcome.final?_ignore, tcpClosePortInternal] at h
      split at h
      · exact Option.some.inj h ▸ .of_same rfl rfl rfl rfl rfl
      · refine .trans ?_ (primitives_tcpEnqueueReliable rfl g' h).feeds
        exact .of_same rfl rfl rfl rfl rfl

/-- What `tcp_task` does with its input puts requests into `send_queue`, and nothing else. -/
theorem feeds_executeInput {input : TaskInput} {env : TaskEnv}
    (h : (executeInput g input env).final? = some g') : Feeds g g' := by
  cases input with
  | scan => exact Option.some.inj h ▸ feeds_scanTimeouts _
  | send params =>
      obtain rfl := Option.some.inj h
      unfold executeSend
      dsimp only
      split
      · exact feeds_tcpSendInternal _ _
      · exact (feeds_tcpSendInternal _ _).trans (.of_same rfl rfl rfl rfl rfl)
  | segment seg => exact (primitives_inputTcpInternal g' h).feeds
  | cmd cmd => exact feeds_executeCmd h
  | nothing => exact Option.some.inj h ▸ .refl g

theorem feeds_callTcpSend {inCallback : Bool} {src dst : BitVec 16} {addr : Ipv4Addr}
    {data : Option Memory} {len : BitVec 16} {timeout : BitVec 32}
    (h : (callTcpSend g inCallback src dst addr data len timeout).final? = some g') :
    Feeds g g' := by
  unfold callTcpSend at h
  dsimp only at h
  generalize hallocated : ({ g with nextAddr := g.nextAddr + 1 } : Globals) = allocated at h
  have hstart : Feeds g allocated := by
    subst hallocated
    exact .of_same rfl rfl rfl rfl rfl
  apply hstart.trans
  generalize (data.map fun bytes => (⟨g.nextAddr, bytes⟩ : Block)) = block at h
  unfold tcpSend at h
  cases hfind : findPort allocated src dst addr with
  | none =>
      simp only [hfind] at h
      exact Option.some.inj h ▸ feeds_free _ _
  | some i =>
      simp only [hfind] at h
      split at h
      case h_1 g₁ r hdone =>
          obtain rfl := Option.some.inj h
          exact (tcpEnqueueReliable_primitives hdone).feeds
      case h_2 g₁ k hblocked =>
          obtain ⟨rfl, -⟩ := tcpEnqueueReliable_blocked hblocked
          split_ifs at h
          · unfold addSender at h
            split at h
            · exact Option.some.inj h ▸ .of_same rfl rfl rfl rfl rfl
            · cases h
          · exact Option.some.inj h ▸ .refl _
          · exact Option.some.inj h ▸ feeds_free _ _
      case h_3 g₁ r _ hblocked =>
          obtain ⟨rfl, -⟩ := tcpEnqueueReliable_blocked hblocked
          exact Option.some.inj h ▸ .refl _
      case h_4 => cases h

theorem feeds_resumeSender {k : Nat} {deletedTake : Bool}
    (h : resumeSender g k deletedTake = some g') : Feeds g g' := by
  have hdropped : Feeds g (dropSender g k) := .of_same rfl rfl rfl rfl rfl
  have hqueue : ∀ (g₁ : Globals) (t : Sender), Feeds g g₁ →
      Feeds g (enqueueTaken g₁ t.port t.handle t.params).1 := fun g₁ t hfeeds =>
    hfeeds.trans (primitives_enqueueTaken g₁ t.port t.handle t.params).feeds
  unfold resumeSender at h
  split at h
  case h_1 => cases h
  case h_2 t _ =>
      have hstale : (if deletedTake then
          some (enqueueTaken (dropSender g k) t.port t.handle t.params).1
          else some ((dropSender g k).free t.params.data)) = some g' → Feeds g g' := by
        intro hg'
        split at hg'
        · exact Option.some.inj hg' ▸ hqueue _ t hdropped
        · exact Option.some.inj hg' ▸ hdropped.trans (feeds_free _ _)
      split at h
      case isTrue => cases h
      split at h
      case h_1 sem _ =>
          split at h
          case isTrue =>
              split at h
              case h_1 =>
                  exact Option.some.inj h ▸ hqueue _ t (hdropped.trans (.of_same rfl rfl rfl rfl rfl))
              case h_2 => exact Option.some.inj h ▸ .of_same rfl rfl rfl rfl rfl
          case isFalse => exact hstale h
      case h_2 => exact hstale h

theorem feeds_timeoutSender {k : Nat} (h : timeoutSender g k = some g') : Feeds g g' := by
  have hdropped : Feeds g (dropSender g k) := .of_same rfl rfl rfl rfl rfl
  unfold timeoutSender at h
  split at h
  case h_1 => cases h
  case h_2 =>
      split at h
      · cases h
      · exact Option.some.inj h ▸ hdropped.trans (feeds_free _ _)

end Feeds

/-- The segment that `input_tcp` queues: the copy of its buffer. -/
def copied (buffer : Memory) (length : BitVec 16) (src : Ipv4Addr) (heap : Memory) : Segment :=
  ⟨heap.store 0 (buffer.load 0 length.toNat), length, src⟩

section Arrivals
variable {g g' : Globals}

/-- What a step leaves in `input_queue`: what was in it but perhaps its head, or one more. -/
inductive Arrivals : Action → List Segment → List Segment → Prop
  | keeps {a : Action} {queue queue' : List Segment} (h : queue' <:+ queue) :
      Arrivals a queue queue'
  | arrives {buffer : Memory} {length : BitVec 16} {src : Ipv4Addr} {heap : Memory}
      {queue : List Segment} :
      Arrivals (.inputTcp buffer length src (some heap)) queue
        (queue ++ [copied buffer length src heap])

theorem Feeds.arrivals {a : Action} (h : Feeds g g') : Arrivals a g.inputQueue g'.inputQueue :=
  .keeps (h.inputQueue ▸ List.suffix_rfl)

theorem selectInput_inbox (g : Globals) :
    (selectInput g).1.selfNet = g.selfNet ∧ (selectInput g).1.inputQueue <:+ g.inputQueue := by
  unfold selectInput
  split
  case h_1 => exact ⟨rfl, List.suffix_rfl⟩
  case h_2 => split <;> exact ⟨rfl, List.suffix_rfl⟩
  case h_3 =>
      split
      case h_1 => exact ⟨rfl, List.suffix_rfl⟩
      case h_2 hqueue =>
          refine ⟨rfl, ?_⟩
          rw [hqueue]
          exact List.suffix_cons _ _
  case h_4 => split <;> exact ⟨rfl, List.suffix_rfl⟩

/-- The segment that `tcp_task` works on is the head of `input_queue`. -/
theorem mem_inputQueue_of_selectInput {seg : Segment} (h : (selectInput g).2 = .segment seg) :
    seg ∈ g.inputQueue := by
  unfold selectInput at h
  split at h
  case h_1 => cases h
  case h_2 => split at h <;> cases h
  case h_3 =>
      split at h
      case h_1 => cases h
      case h_2 hqueue =>
          obtain rfl := TaskInput.segment.inj h
          rw [hqueue]
          exact List.mem_cons_self
  case h_4 => split at h <;> cases h

end Arrivals

section Steps
variable {s s' : System} {a : Action}

theorem step_inbox (h : step s a = some s') :
    s'.g.selfNet = s.g.selfNet ∧ Arrivals a s.g.inputQueue s'.g.inputQueue := by
  have hfeeds : Feeds s.g s'.g →
      s'.g.selfNet = s.g.selfNet ∧ Arrivals a s.g.inputQueue s'.g.inputQueue := fun h =>
    ⟨h.selfNet, h.arrivals⟩
  cases a with
  | tcpTask env =>
      have hafter := feeds_executeInput (step_task_final h)
      obtain ⟨hnet, hqueue⟩ := selectInput_inbox s.g
      exact ⟨hafter.selfNet.trans hnet, .keeps (hafter.inputQueue ▸ hqueue)⟩
  | tcpSend inCallback src dst addr data len timeout =>
      exact hfeeds (feeds_callTcpSend (step_tcpSend_final h))
  | resumeSender k deletedTake =>
      obtain ⟨g', hg', rfl⟩ := Option.map_eq_some_iff.mp h
      exact hfeeds (feeds_resumeSender hg')
  | timeoutSender k =>
      obtain ⟨g', hg', rfl⟩ := Option.map_eq_some_iff.mp h
      exact hfeeds (feeds_timeoutSender hg')
  | tcpConnectPort | tcpListenPort | tcpClosePort =>
      obtain rfl := Option.some.inj h
      simp only [tcpConnectPort, tcpListenPort, tcpClosePort, sendPortCmd]
      split <;> exact ⟨rfl, .keeps List.suffix_rfl⟩
  | inputTcp buffer length src malloc =>
      obtain rfl := Option.some.inj h
      unfold inputTcp
      split
      case h_1 => exact ⟨rfl, .keeps List.suffix_rfl⟩
      case h_2 heap =>
          dsimp only
          split
          case h_1 queue hsend =>
              obtain ⟨-, rfl⟩ := queueSend_eq_some_iff.mp hsend
              exact ⟨rfl, .arrives⟩
          case h_2 => exact ⟨rfl, .keeps List.suffix_rfl⟩
  | tick =>
      obtain rfl := Option.some.inj h
      exact hfeeds (.of_same rfl rfl rfl rfl rfl)

/-- What holds of the segments that arrive in a run holds of the segments that wait, and the host
    keeps its addresses. -/
theorem inputQueue_of_run {C : System → Action → Prop} {P : Segment → Prop} {net : NetContext}
    {as : List Action}
    (harrives : ∀ s buffer length src heap, C s (.inputTcp buffer length src (some heap)) →
      P (copied buffer length src heap))
    (hg : Guarded step C (boot net) as) (hrun : run step (boot net) as = some s) :
    s.g.selfNet = net ∧ ∀ seg ∈ s.g.inputQueue, P seg := by
  refine run_invariant (P := fun s => s.g.selfNet = net ∧ ∀ seg ∈ s.g.inputQueue, P seg) ?_
    ⟨rfl, by simp [boot]⟩ hg hrun
  rintro s a s' ⟨hnet, hs⟩ hc hstep
  obtain ⟨hnet', harrivals⟩ := step_inbox hstep
  refine ⟨hnet'.trans hnet, ?_⟩
  generalize s'.g.inputQueue = queue' at harrivals ⊢
  cases harrivals with
  | keeps h => exact fun seg hseg => hs seg (h.subset hseg)
  | arrives =>
      refine List.forall_mem_append.mpr ⟨hs, List.forall_mem_singleton.mpr ?_⟩
      exact harrives s _ _ _ _ hc

end Steps

end NetStack.Tcp
