import NetStack.Tcp.Proofs.Transitions

/-!
# What becomes of requests and entries

A request waits in `send_queue` until it is dequeued, an entry is held until it is
acknowledged, given up, or its port is reset. `RequestFate` and `EntryFate` say this once for
every effect. `Custody` is what invariants about either need: something is queued, held or
acknowledged, and it stays so unless a dequeue drops it or a retransmission gives it up.
-/

namespace NetStack.Tcp
open NetStack.Lib

/-- The entry holds what a request asks to transmit. -/
structure TcpUnacked.Records (entry : TcpUnacked) (params : TcpTransmitParams) : Prop where
  inUse : entry.inUse = true
  control : entry.control = params.control
  data : entry.data = params.data

/-- The step puts a new port into slot `i`. -/
inductive Creates (s : System) (a : Action) (i : PortIdx) : Prop
  | connect {self other : BitVec 16} {addr : Ipv4Addr}
      {onReceive onConnect onDisconnect : Option FnPtr}
      (hcmd : Processes s a
        (.cmd (.createAndConnect self other addr onReceive onConnect onDisconnect)))
      (hunused : findUnusedPort s.g = some i)
  | listen {self : BitVec 16} {onReceive onConnect onDisconnect : Option FnPtr}
      (hcmd : Processes s a (.cmd (.createAndListen self onReceive onConnect onDisconnect)))
      (hunused : findUnusedPort s.g = some i)

/-- What an effect can do to a queued request. -/
inductive RequestFate (s : System) (a : Action) (p : TcpTransmitParams) (g g' : Globals) : Prop
  | queued (h : p ∈ g'.sendQueue)
  | dropped {env : TaskEnv} (ha : a = .tcpTask env) (hin : (selectInput s.g).2 = .send p)
      (hstage : Stage s.g [] g)
      (hwhy : env.send.malloc = none ∨ findParamsPort s.g p = none ∨
        ∃ i, findParamsPort s.g p = some i ∧ consumesSequence p = true ∧
          findEmptyUnacked (s.g.ports i) = none)
  | passed {env : TaskEnv} (ha : a = .tcpTask env) (hin : (selectInput s.g).2 = .send p)
      (hstage : Stage s.g [] g) (hplain : consumesSequence p = false)
  | recorded {env : TaskEnv} {i : PortIdx} {j : UnackedIdx} (ha : a = .tcpTask env)
      (hin : (selectInput s.g).2 = .send p) (hstage : Stage s.g [] g)
      (hfind : findParamsPort s.g p = some i)
      (hentry : ((g'.ports i).unacked j).Records p)

/-- What an effect can do to an entry in use, entry `j` of port `i`. -/
inductive EntryFate (s : System) (a : Action) (i : PortIdx) (j : UnackedIdx) (g g' : Globals) :
    Prop
  | kept (sentAt : BitVec 32)
      (h : (g'.ports i).unacked j = { (g.ports i).unacked j with sentAt := sentAt })
  | acked (h : .acked i (g.ports i).incarnation ((g.ports i).unacked j) ∈ g'.log)
  | gaveUp {env : SendEnv} (hdue : Due s a i j env g)
      (hfail : env.malloc = none ∨ env.ipv4Accepts = false)
  | reset (hinc : (g'.ports i).incarnation = none)
  | created (h : Creates s a i) (hstage : Stage s.g [] g)

section Fate
variable {s s' : System} {a : Action} {g g' : Globals}

theorem Taken.mem_sendQueue {i : PortIdx} {params p : TcpTransmitParams}
    (h : Taken g i params g') (hp : p ∈ g.sendQueue) : p ∈ g'.sendQueue := by
  cases h with
  | queued _ _ _ _ => exact List.mem_append_left _ hp
  | full _ _ _ hquiet => exact hquiet.sendQueue ▸ hp
  | lost _ _ _ hquiet => exact hquiet.sendQueue ▸ hp

theorem Enqueue.mem_sendQueue {B : Prop} {params p : TcpTransmitParams}
    (h : Enqueue B g params g') (hp : p ∈ g.sendQueue) : p ∈ g'.sendQueue := by
  cases h with
  | unfound _ hquiet => exact hquiet.sendQueue ▸ hp
  | noSlot _ _ _ _ hquiet => exact hquiet.sendQueue ▸ hp
  | taken _ h => exact h.mem_sendQueue hp

theorem Taken.unacked {k : PortIdx} {params : TcpTransmitParams} (h : Taken g k params g')
    (i : PortIdx) : (g'.ports i).unacked = (g.ports i).unacked := by
  have htake : ∀ slots, ((g.setPort k { g.ports k with unackedSlots := slots }).ports i).unacked =
      (g.ports i).unacked := by
    intro slots
    by_cases hi : i = k
    · subst hi
      simp
    · simp [hi]
  cases h with
  | queued _ _ _ _ => exact htake _
  | full _ _ _ hquiet => exact hquiet.unacked i
  | lost _ _ _ hquiet => exact (hquiet.unacked i).trans (htake _)

theorem Enqueue.unacked {B : Prop} {params : TcpTransmitParams} (h : Enqueue B g params g')
    (i : PortIdx) : (g'.ports i).unacked = (g.ports i).unacked := by
  cases h with
  | unfound _ hquiet => exact hquiet.unacked i
  | noSlot _ _ _ _ hquiet => exact hquiet.unacked i
  | taken _ h => exact h.unacked i

theorem unacked_setState (g : Globals) (k : PortIdx) (state : TcpState) (i : PortIdx) :
    ((g.setState k state).ports i).unacked = (g.ports i).unacked := by
  by_cases hi : i = k
  · subst hi
    simp [Globals.setState]
  · simp [Globals.setState, hi]

/-- What an effect does to a queued request. -/
theorem Effect.requestFate (he : Effect s a s' g g') {p : TcpTransmitParams}
    (hp : p ∈ g.sendQueue) : RequestFate s a p g g' := by
  cases he with
  | quiet hquiet => exact .queued (hquiet.sendQueue ▸ hp)
  | appSend _ _ _ _ h => exact .queued (h.mem_sendQueue hp)
  | resumed _ _ _ _ h => exact .queued (h.mem_sendQueue hp)
  | resumedStale | acknowledged => exact .queued (List.mem_append_left _ hp)
  | dropped ha hin hstage hqueue hwhy =>
      rcases List.mem_cons.mp (hqueue ▸ hp) with rfl | hp
      · exact .dropped ha hin hstage hwhy
      · exact .queued hp
  | passed ha hin hstage hqueue _ _ hplain _ =>
      rcases List.mem_cons.mp (hqueue ▸ hp) with rfl | hp
      · exact .passed ha hin hstage hplain
      · exact .queued hp
  | @recorded _ params rest i j now t ha hin hstage hqueue _ hfind _ _ _ =>
      rcases List.mem_cons.mp (hqueue ▸ hp) with rfl | hp
      · refine .recorded ha hin hstage (hstage.findParamsPort p ▸ hfind) (j := j) ?_
        constructor <;> simp [recordUnacked]
      · exact .queued hp
  | reset _ _ _ _ h => exact .queued (h.sendQueue ▸ hp)
  | tookOver _ _ _ _ _ h => exact .queued (h.mem_sendQueue hp)
  | established =>
      unfold callOnConnect
      split <;> exact .queued hp
  | finReplied _ _ _ _ h => exact .queued (h.mem_sendQueue hp)
  | closing _ _ _ h => exact .queued (h.mem_sendQueue hp)
  | connecting _ _ _ h => exact .queued (h.mem_sendQueue hp)
  | appWait | strayGive | touched | retransmitted | gaveUp | released | ackStuck | delivered
  | disconnected | finWait2 | timeWait | listening => exact .queued hp

theorem EntryFate.of_eq {i : PortIdx} {j : UnackedIdx}
    (h : (g'.ports i).unacked = (g.ports i).unacked) : EntryFate s a i j g g' :=
  .kept _ (congrFun h j)

/-- Port `k` is replaced by `p`. -/
theorem EntryFate.setPort {i k : PortIdx} {j : UnackedIdx} {p : TcpPort}
    (hports : g'.ports = Function.update g.ports k p)
    (h : i = k → EntryFate s a i j g g') : EntryFate s a i j g g' := by
  by_cases hi : i = k
  · exact h hi
  · exact .of_eq (by simp [hports, hi])

/-- Port `k` changes and keeps its entries. -/
theorem EntryFate.setPort_same {i k : PortIdx} {j : UnackedIdx} {p : TcpPort}
    (hports : g'.ports = Function.update g.ports k p) (hp : p.unacked = (g.ports k).unacked) :
    EntryFate s a i j g g' :=
  .setPort hports fun hi => .of_eq (by simp [hports, hi, hp])

/-- What an effect does to an entry in use. -/
theorem Effect.entryFate (he : Effect s a s' g g') {i : PortIdx} {j : UnackedIdx}
    (huse : ((g.ports i).unacked j).inUse = true) : EntryFate s a i j g g' := by
  cases he with
  | quiet hquiet => exact .of_eq (hquiet.unacked i)
  | appSend _ _ _ _ h => exact .of_eq (h.unacked i)
  | resumed _ _ _ _ h => exact .of_eq (h.unacked i)
  | appWait | resumedStale | dropped | passed | retransmitted | delivered | disconnected =>
      exact .of_eq rfl
  | strayGive | acknowledged | ackStuck | finWait2 | timeWait =>
      exact .setPort_same rfl rfl
  | @recorded _ params rest k l now t _ _ _ _ _ _ _ hempty _ =>
      refine .setPort (k := k) rfl ?_
      intro hi
      subst hi
      have hl : j ≠ l := by
        rintro rfl
        have := firstIdx_some hempty
        simp [huse] at this
      exact .kept ((g.ports i).unacked j).sentAt (by simp [recordUnacked, hl])
  | @touched p l env now _ =>
      refine .setPort (k := p) rfl ?_
      intro hi
      subst hi
      by_cases hj : j = l
      · subst hj
        exact .kept now (by simp [Globals.setUnacked])
      · exact .kept ((g.ports i).unacked j).sentAt (by simp [Globals.setUnacked, hj])
  | @gaveUp p l env hdue hfail =>
      refine .setPort (k := p) rfl ?_
      intro hi
      subst hi
      by_cases hj : j = l
      · subst hj
        exact .gaveUp hdue hfail
      · exact .kept ((g.ports i).unacked j).sentAt
          (by simp [TcpPort.released, TcpPort.given, hj])
  | @reset _ k _ _ _ _ h =>
      obtain ⟨unacked, -, hports⟩ := h.ports
      exact .setPort hports fun hi => .reset (by simp [hports, hi, TcpPort.incarnation])
  | @released k l seg =>
      refine .setPort (k := k) rfl ?_
      intro hi
      subst hi
      by_cases hj : j = l
      · subst hj
        exact .acked (by simp)
      · exact .kept ((g.ports i).unacked j).sentAt
          (by simp [TcpPort.released, TcpPort.given, hj])
  | @tookOver _ k seg _ _ _ _ _ h =>
      refine .of_eq ((h.unacked i).trans ?_)
      by_cases hi : i = k
      · subst hi
        simp [TcpPort.takenOver]
      · simp [hi]
  | established =>
      exact .of_eq (by rw [ports_callOnConnect, unacked_setState])
  | finReplied _ _ _ _ h => exact .of_eq ((unacked_setState _ _ _ i).trans (h.unacked i))
  | closing _ _ _ h => exact .of_eq ((h.unacked i).trans (unacked_setState _ _ _ i))
  | @listening self onReceive onConnect onDisconnect k hcmd hstage hunused =>
      exact .setPort (k := k) rfl fun hi => .created (hi ▸ .listen hcmd hunused) hstage
  | @connecting _ self other addr onReceive onConnect onDisconnect k hcmd hstage hunused h =>
      by_cases hi : i = k
      · exact .created (hi ▸ .connect hcmd hunused) hstage
      · exact .of_eq ((h.unacked i).trans (by simp [hi]))

end Fate

/-- A request of which `W` holds is queued, or an entry of which `E` holds is in use in port
    `i`, or has been acknowledged while the port had the incarnation. -/
def Custody (i : PortIdx) (incarnation : Option Nat) (W : TcpTransmitParams → Prop)
    (E : TcpUnacked → Prop) (g : Globals) : Prop :=
  (∃ p ∈ g.sendQueue, W p) ∨
    (∃ j, ((g.ports i).unacked j).inUse = true ∧ E ((g.ports i).unacked j)) ∨
      ∃ e, .acked i incarnation e ∈ g.log ∧ E e

/-- The step does not let go of what `W` and `E` are about: a request that it dequeues is
    recorded in port `i`, and an entry that is due is transmitted again. -/
structure Keeps (s : System) (a : Action) (g : Globals) (i : PortIdx)
    (W : TcpTransmitParams → Prop) (E : TcpUnacked → Prop) : Prop where
  send : Stage s.g [] g → ∀ env p, a = .tcpTask env → (selectInput s.g).2 = .send p → W p →
    env.send.malloc ≠ none ∧ consumesSequence p = true ∧ findParamsPort s.g p = some i ∧
      findEmptyUnacked (s.g.ports i) ≠ none
  scan : ∀ j env, Due s a i j env g → E ((g.ports i).unacked j) →
    env.malloc ≠ none ∧ env.ipv4Accepts = true
  create : Stage s.g [] g → ¬ Creates s a i
  records : ∀ p e, W p → e.Records p → E e
  sentAt : ∀ e t, E e → E { e with sentAt := t }

theorem Effect.mem_log {s s' : System} {a : Action} {g g' : Globals} (he : Effect s a s' g g')
    {e : Event} (h : e ∈ g.log) : e ∈ g'.log := by
  obtain ⟨l, hl, -⟩ := he.logGrows
  exact hl ▸ List.mem_append_left l h

/-- What is in custody stays so while the port is not reset. -/
theorem Custody.effect {s s' : System} {a : Action} {g g' : Globals} {i : PortIdx}
    {incarnation : Option Nat} {W : TcpTransmitParams → Prop} {E : TcpUnacked → Prop}
    (he : Effect s a s' g g') (hkeeps : Keeps s a g i W E)
    (hinc : (g.ports i).incarnation = incarnation) (hlive : (g'.ports i).incarnation ≠ none)
    (h : Custody i incarnation W E g) : Custody i incarnation W E g' := by
  rcases h with ⟨p, hp, hW⟩ | ⟨j, huse, hE⟩ | ⟨e, hacked, hE⟩
  · cases he.requestFate hp with
    | queued hp' => exact .inl ⟨p, hp', hW⟩
    | dropped ha hin hstage hwhy =>
        obtain ⟨hmalloc, -, hfind, hempty⟩ := hkeeps.send hstage _ p ha hin hW
        rcases hwhy with hnone | hnone | ⟨k, hk, -, hfull⟩
        · exact absurd hnone hmalloc
        · simp [hfind] at hnone
        · obtain rfl := Option.some.inj (hfind.symm.trans hk)
          exact absurd hfull hempty
    | passed ha hin hstage hplain => simp [(hkeeps.send hstage _ p ha hin hW).2.1] at hplain
    | @recorded env k j ha hin hstage hfind hentry =>
        obtain ⟨-, -, hfind', -⟩ := hkeeps.send hstage _ p ha hin hW
        obtain rfl := Option.some.inj (hfind.symm.trans hfind')
        exact .inr (.inl ⟨j, hentry.inUse, hkeeps.records p _ hW hentry⟩)
  · cases he.entryFate huse with
    | kept sentAt hkept =>
        exact .inr (.inl ⟨j, by rw [hkept]; exact huse, by rw [hkept]; exact hkeeps.sentAt _ _ hE⟩)
    | acked hacked => exact .inr (.inr ⟨_, hinc ▸ hacked, hE⟩)
    | gaveUp hdue hfail =>
        obtain ⟨hmalloc, hipv4⟩ := hkeeps.scan j _ hdue hE
        rcases hfail with hnone | hno
        · exact absurd hnone hmalloc
        · simp [hipv4] at hno
    | reset hnone => exact absurd hnone hlive
    | created hcreates hstage => exact absurd hcreates (hkeeps.create hstage)
  · exact .inr (.inr ⟨e, he.mem_log hacked, hE⟩)

end NetStack.Tcp
