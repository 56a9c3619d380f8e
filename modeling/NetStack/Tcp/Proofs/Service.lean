import NetStack.Tcp.Proofs.Inbox

/-!
# What `tcp_task` takes up, and when

An iteration of `tcp_task` takes up the oldest item of the queue whose handle is the oldest in the set,
and puts requests in behind the others. Requests, segments and commands are taken up in bounded time.
-/

namespace NetStack.Tcp
open NetStack.Lib

/-- The queue set of `tcp_task` and the items in its members, as the task receives them. -/
def stock (g : Globals) : Stock QueueHandle TaskInput where
  handles := g.queueSet
  items
    | .sendQueue => g.sendQueue.map .send
    | .inputQueue => g.inputQueue.map .segment
    | .portCmdQueue => g.portCmdQueue.map .cmd

/-- An iteration of `tcp_task`. -/
def Action.isTcpTask : Action → Bool
  | .tcpTask _ => true
  | _ => false

variable {s s' : System} {g g' : Globals} {a : Action}

theorem backlog_stock (g : Globals) : (stock g).backlog = backlog g :=
  (backlog_eq rfl (by simp [Stock.backlog, stock]) (by simp [Stock.backlog, stock])
    (by simp [Stock.backlog, stock])).symm

/-- The task's choice of its input is a selection. -/
theorem stock_selectInput (g : Globals) : stock (selectInput g).1 = (stock g).select := by
  have hselect : ∀ {handle set}, g.queueSet = handle :: set → ∀ g₁ : Globals,
      g₁.queueSet = set →
      (∀ h, (stock g₁).items h = Function.update (stock g).items handle
        ((stock g).items handle).tail h) → stock g₁ = (stock g).select := by
    intro handle set hset g₁ hset₁ hitems
    have hselect : (stock g).select = ⟨set, Function.update (stock g).items handle
        ((stock g).items handle).tail⟩ := Stock.select_cons hset
    rw [hselect, ← funext hitems, ← hset₁]
    rfl
  unfold selectInput
  split
  case h_1 hset => exact (Stock.select_nil hset).symm
  all_goals
    rename_i set hset
    split <;>
      · apply hselect hset _ rfl
        intro h
        cases h <;> simp [stock, *]

theorem Feeds.grows (h : Feeds g g') : Stock.Grows (stock g) (stock g') := by
  refine ⟨h.queueSet, fun handle => ?_⟩
  cases handle with
  | sendQueue => exact h.sendQueue.map _
  | inputQueue =>
      simp only [stock, h.inputQueue]
      exact List.prefix_rfl
  | portCmdQueue =>
      simp only [stock, h.portCmdQueue]
      exact List.prefix_rfl

theorem grows_sendPortCmd (g : Globals) (cmd : TcpPortCmd) :
    Stock.Grows (stock g) (stock (sendPortCmd g cmd).1) := by
  unfold sendPortCmd
  split
  case h_1 queue hsend =>
      obtain ⟨-, rfl⟩ := queueSend_eq_some_iff.mp hsend
      refine ⟨Stock.setPost_grows _ _ _, fun handle => ?_⟩
      cases handle with
      | portCmdQueue => exact (List.prefix_append _ _).map _
      | sendQueue | inputQueue => exact List.prefix_rfl
  case h_2 => exact .refl _

theorem grows_inputTcp (g : Globals) (buffer : Memory) (length : BitVec 16)
    (srcIpv4Addr : Ipv4Addr) (malloc : Option Memory) :
    Stock.Grows (stock g) (stock (inputTcp g buffer length srcIpv4Addr malloc).1) := by
  unfold inputTcp
  split
  case h_1 => exact .refl _
  case h_2 =>
      dsimp only
      split
      case h_1 queue hsend =>
          obtain ⟨-, rfl⟩ := queueSend_eq_some_iff.mp hsend
          refine ⟨Stock.setPost_grows _ _ _, fun handle => ?_⟩
          cases handle with
          | inputQueue => exact (List.prefix_append _ _).map _
          | sendQueue | portCmdQueue => exact List.prefix_rfl
      case h_2 => exact .refl _

/-- An iteration of `tcp_task` takes the selected item out, and nothing else takes anything out. -/
theorem isService : IsService step Action.isTcpTask (fun s => stock s.g) := by
  intro s a s' h
  cases a with
  | tcpTask env =>
      have hafter := feeds_executeInput (step_task_final h)
      rw [Action.isTcpTask, if_pos rfl, ← stock_selectInput]
      exact hafter.grows
  | tcpSend inCallback src dst addr data len timeout =>
      exact (feeds_callTcpSend (step_tcpSend_final h)).grows
  | resumeSender k deletedTake =>
      obtain ⟨g', hg', rfl⟩ := Option.map_eq_some_iff.mp h
      exact (feeds_resumeSender hg').grows
  | timeoutSender k =>
      obtain ⟨g', hg', rfl⟩ := Option.map_eq_some_iff.mp h
      exact (feeds_timeoutSender hg').grows
  | tcpConnectPort | tcpListenPort | tcpClosePort =>
      obtain rfl := Option.some.inj h
      exact grows_sendPortCmd _ _
  | inputTcp buffer length src malloc =>
      obtain rfl := Option.some.inj h
      exact grows_inputTcp _ _ _ _ _
  | tick =>
      obtain rfl := Option.some.inj h
      exact .refl _

end NetStack.Tcp
