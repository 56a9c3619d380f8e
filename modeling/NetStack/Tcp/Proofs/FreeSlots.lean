import NetStack.Tcp.Proofs.Datagram
import NetStack.Tcp.Proofs.Moves

/-!
# Free slots

`self_port_num = 0` marks a slot as free, and the lookups compare free and used slots alike:
a reset leaves the peer of the old connection in place. Nothing keeps an application from
naming port 0, so that a command can create a port in a slot that still counts as free, or
find the remains of an old one, and a task that a reset has woken may still take the semaphore
that the reset has deleted. `sparesFreeSlots` says which commands and sends do so. Without them
the mark is right in every state, and no operation but the allocation reaches a free slot.
-/

namespace NetStack.Tcp
open NetStack.Lib

/-- Nothing lives in the slot: its state is `CLOSED`, and it has no semaphore. -/
def TcpPort.Vacant (p : TcpPort) : Prop := p.state = .closed ∧ p.unackedSlots = none

instance (p : TcpPort) : Decidable p.Vacant :=
  decidable_of_iff (p.state = .closed ∧ p.unackedSlots.isNone = true)
    (and_congr_right fun _ => Option.isNone_iff_eq_none)

/-- The handle that a reset leaves in the slot. -/
def Event.leaves? (i : PortIdx) : Event → Option Nat
  | .reset k incarnation => if k = i then incarnation else none
  | _ => none

/-- The handle of a deleted semaphore that is still in slot `i`: `tcp_reset_port` deletes the
    semaphore and keeps the pointer, which `allocate_port` overwrites. -/
def leftHandle (g : Globals) (i : PortIdx) : Option Nat :=
  g.log.reverse.findSome? (Event.leaves? i)

/-- A reset leaves the handle of the port behind. -/
theorem leftHandle_tcpResetPort {g : Globals} {i : PortIdx} {n : Nat}
    (h : (g.ports i).incarnation = some n) : leftHandle (tcpResetPort g i) i = some n := by
  rw [leftHandle, tcpResetPort, Globals.log_emit, List.reverse_append, List.reverse_singleton,
    List.singleton_append, List.findSome?_cons]
  simp [Event.leaves?, h]

/-- Exactly the vacant slots are marked as free. -/
def FreeMarked (g : Globals) : Prop := ∀ i, (g.ports i).selfPortNum = 0 ↔ (g.ports i).Vacant

/-- The step is an iteration of `tcp_task` in which `allocate_port` overwrites slot `i`. -/
inductive Overwrites (s : System) : Action → PortIdx → Prop
  | created {env : TaskEnv} {cmd : TcpPortCmd} {self : BitVec 16} {i : PortIdx}
      (hrunning : s.tcpTask = .running) (hin : (selectInput s.g).2 = .cmd cmd)
      (hcreated : cmd.created? = some self) (hsemaphore : env.semaphore = true)
      (hunused : findUnusedPort s.g = some i) : Overwrites s (.tcpTask env) i

/-- A segment, a close command or a send works on slot `i`. -/
inductive ActsOn (s : System) : Action → PortIdx → Prop
  | segment {env : TaskEnv} {seg : Segment} {i : PortIdx} (hrunning : s.tcpTask = .running)
      (hin : (selectInput s.g).2 = .segment seg)
      (hverdict : checkSegment s.g seg = .accept i ∨ checkSegment s.g seg = .reset i) :
      ActsOn s (.tcpTask env) i
  | close {env : TaskEnv} {self other : BitVec 16} {addr : Ipv4Addr} {i : PortIdx}
      (hrunning : s.tcpTask = .running)
      (hin : (selectInput s.g).2 = .cmd (.close self other addr))
      (hfind : findPort s.g self other addr = some i) : ActsOn s (.tcpTask env) i
  /-- A request leaves `send_queue`. -/
  | request {env : TaskEnv} {params : TcpTransmitParams} {i : PortIdx}
      (hrunning : s.tcpTask = .running) (hin : (selectInput s.g).2 = .send params)
      (hfind : findParamsPort s.g params = some i) : ActsOn s (.tcpTask env) i
  | send {inCallback : Bool} {src dst : BitVec 16} {addr : Ipv4Addr} {data : Option Memory}
      {len : BitVec 16} {timeout : BitVec 32} {i : PortIdx}
      (hfind : findPort s.g src dst addr = some i) :
      ActsOn s (.tcpSend inCallback src dst addr data len timeout) i
  /-- A send that has waited takes the semaphore of the slot. -/
  | resumed {k : Nat} {deletedTake : Bool} {t : Sender} (ht : s.g.senders[k]? = some t)
      (hincarnation : (s.g.ports t.port).incarnation = some t.handle) :
      ActsOn s (.resumeSender k deletedTake) t.port
  /-- A send that a reset has woken takes the deleted semaphore that is still in the slot. -/
  | resumedDeleted {k : Nat} {t : Sender} (ht : s.g.senders[k]? = some t) (hready : t.ready = true)
      (hdeleted : (s.g.ports t.port).unackedSlots = none)
      (hleft : leftHandle s.g t.port = some t.handle) : ActsOn s (.resumeSender k true) t.port

/-- The task that resumes has waited for the deleted semaphore that is still in a vacant slot. -/
def waitsForLeft (g : Globals) (t : Sender) : Bool :=
  t.ready && decide (g.ports t.port).Vacant && leftHandle g t.port == some t.handle

/-- The step creates no port with number 0, no close or send for port 0 finds a slot, and no send
    takes the deleted semaphore of a vacant slot. -/
def sparesFreeSlots (s : System) : Action → Bool
  | .tcpTask env =>
      s.tcpTask != .running ||
        match (selectInput s.g).2 with
        | .cmd (.createAndConnect self _ _ _ _ _) =>
            self != 0 || !env.semaphore || (findUnusedPort s.g).isNone
        | .cmd (.createAndListen self _ _ _) =>
            self != 0 || !env.semaphore || (findUnusedPort s.g).isNone
        | .cmd (.close self other addr) => self != 0 || (findPort s.g self other addr).isNone
        | _ => true
  | .tcpSend _ src dst addr _ _ _ => src != 0 || (findPort s.g src dst addr).isNone
  | .resumeSender k deletedTake => !deletedTake || s.g.senders[k]?.all fun t => !waitsForLeft s.g t
  | _ => true

/-- What a step may do with free slots: `allocate_port` overwrites only vacant ones, nothing
    else works on them, the marks are right after the step, and a vacant slot that is not
    overwritten stays so. -/
structure RespectsSlots (s : System) (a : Action) : Prop where
  overwrites : ∀ i, Overwrites s a i → (s.g.ports i).Vacant
  actsOn : ∀ i, ActsOn s a i → ¬ (s.g.ports i).Vacant
  marked : ∀ s', step s a = some s' → FreeMarked s'.g
  vacant : ∀ s', step s a = some s' → ∀ i, (s.g.ports i).Vacant → ¬ Overwrites s a i →
    (s'.g.ports i).Vacant

theorem TcpPort.incarnation_eq_none_iff {p : TcpPort} :
    p.incarnation = none ↔ p.unackedSlots = none := by
  simp [incarnation]

theorem TcpPort.vacant_iff {p : TcpPort} :
    p.Vacant ↔ p.state = .closed ∧ p.incarnation = none := by
  rw [Vacant, incarnation_eq_none_iff]

theorem TcpPort.Vacant.incarnation {p : TcpPort} (h : p.Vacant) : p.incarnation = none :=
  (vacant_iff.mp h).2

/-- The slot that a key finds has its port number. -/
theorem findPort_selfPortNum {g : Globals} {self other : BitVec 16} {addr : Ipv4Addr}
    {i : PortIdx} (h : findPort g self other addr = some i) : (g.ports i).selfPortNum = self :=
  congrArg Prod.fst (findPort_eq_some_iff.mp h).1

/-- The marks are right, and nothing is on its way for port number 0. -/
structure SlotsOk (g : Globals) : Prop where
  marked : ∀ i, (g.ports i).selfPortNum = 0 ↔
    (g.ports i).state = .closed ∧ (g.ports i).incarnation = none
  sendQueue : ∀ params ∈ g.sendQueue, params.srcPort ≠ 0
  senders : ∀ t ∈ g.senders, t.params.srcPort ≠ 0

namespace SlotsOk
variable {g g' : Globals}

theorem freeMarked (h : SlotsOk g) : FreeMarked g := fun i => by
  rw [TcpPort.vacant_iff]
  exact h.marked i

theorem alike (hsame : Alike g g') (h : SlotsOk g) : SlotsOk g' := by
  refine ⟨?_, hsame.sendQueue ▸ h.sendQueue, ?_⟩
  · intro i
    rw [TcpPort.selfPortNum_of_settled (hsame.settled i), hsame.state i, hsame.incarnation i]
    exact h.marked i
  · intro t ht
    obtain ⟨u, hu, hparams, -⟩ := hsame.senders t ht
    exact hparams ▸ h.senders u hu

/-- A slot whose state is not `CLOSED` has a port number. -/
theorem selfPortNum_of_open (h : SlotsOk g) {i : PortIdx} (hopen : (g.ports i).state ≠ .closed) :
    (g.ports i).selfPortNum ≠ 0 := fun hzero => hopen ((h.marked i).mp hzero).1

/-- A slot with a semaphore has a port number. -/
theorem selfPortNum_of_incarnation (h : SlotsOk g) {i : PortIdx}
    (hinc : (g.ports i).incarnation ≠ none) : (g.ports i).selfPortNum ≠ 0 :=
  fun hzero => hinc ((h.marked i).mp hzero).2

theorem setPort (h : SlotsOk g) {i : PortIdx} {p : TcpPort}
    (hp : p.selfPortNum = 0 ↔ p.state = .closed ∧ p.incarnation = none) :
    SlotsOk (g.setPort i p) := by
  refine ⟨fun k => ?_, h.sendQueue, h.senders⟩
  by_cases hk : k = i
  · subst hk
    simpa using hp
  · simpa [hk] using h.marked k

/-- A port with a number gets a state other than `CLOSED`. -/
theorem setOpen (h : SlotsOk g) {i : PortIdx} {p : TcpPort} (hself : p.selfPortNum ≠ 0)
    (hopen : p.state ≠ .closed) : SlotsOk (g.setPort i p) :=
  h.setPort (iff_of_false hself fun hp => hopen hp.1)

theorem queueing (h : SlotsOk g) {items : List TcpTransmitParams}
    (hitems : ∀ p ∈ items, p.srcPort ≠ 0) : SlotsOk (g.queueing items) :=
  ⟨h.marked, fun p hp => (List.mem_append.mp hp).elim (h.sendQueue p) (hitems p), h.senders⟩

theorem dequeue (h : SlotsOk g) {params : TcpTransmitParams} {rest : List TcpTransmitParams}
    (hqueue : g.sendQueue = params :: rest) : SlotsOk { g with sendQueue := rest } :=
  ⟨h.marked, fun p hp => h.sendQueue p (hqueue ▸ List.mem_cons_of_mem params hp), h.senders⟩

end SlotsOk

/-- Of the numbers of the ports a move clears one at most, but for a port that is created. -/
theorem Move.selfPortNum {s s' : System} {a : Action} {g g' : Globals}
    (hrunning : ∀ env, a = .tcpTask env → s.tcpTask = .running)
    (hmade : ¬ SemaphoreFails s a) (hm : Move s a s' g g')
    (j : PortIdx) :
    (g'.ports j).selfPortNum = (g.ports j).selfPortNum ∨ (g'.ports j).selfPortNum = 0 ∨
      Overwrites s a j := by
  cases hm with
  | stay | wait | push | drop | pass | resend => exact .inl rfl
  | @record env params rest i _ _ _ _ _ _ _ _ _ _ =>
      by_cases hj : j = i
      · subst hj; simp [recordUnacked]
      · simp [hj]
  | @reset i _ _ _ | @takeOver i _ _ _ _ _ _ _ | @timeWait i _ _ _ _ _ =>
      by_cases hj : j = i
      · subst hj; simp [TcpPort.closed, TcpPort.takenOver]
      · simp [hj]
  | @establish i _ _ _ _ _ | @finReply i _ _ _ _ _ _ _ | @finWait2 i _ _ _ _ _ _
  | @close _ _ _ i _ _ _ _ _ =>
      by_cases hj : j = i
      · subst hj; simp [Globals.setState]
      · simp [Globals.setState, hj]
  | @listen _ _ _ _ i hcmd _ hunused | @connect _ _ _ _ _ _ i _ _ hcmd _ hunused _ _ =>
      by_cases hj : j = i
      · subst hj
        obtain ⟨⟨env, rfl⟩, hin⟩ := hcmd
        exact .inr (.inr (.created (hrunning env rfl) hin rfl
          (semaphore_of_not_fails hmade hin rfl) hunused))
      · simp [hj]

/-- Under the condition every move keeps the marks right. -/
theorem SlotsOk.move {s s' : System} {a : Action} {g g' : Globals} (hs : SlotsOk s.g)
    (hrunning : ∀ env, a = .tcpTask env → s.tcpTask = .running) (hmade : ¬ SemaphoreFails s a)
    (hc : sparesFreeSlots s a = true) (hm : Move s a s' g g') (h : SlotsOk g) : SlotsOk g' := by
  cases hm with
  | stay => exact h
  | @wait t hstage hinc hkey _ =>
      refine ⟨h.marked, h.sendQueue, ?_⟩
      intro u hu
      rcases List.mem_append.mp hu with hu | hu
      · exact h.senders u hu
      · obtain rfl := List.mem_singleton.mp hu
        have hself : (g.ports u.port).selfPortNum ≠ 0 :=
          h.selfPortNum_of_incarnation (by simp [hinc])
        have hsrc : u.params.srcPort = (g.ports u.port).selfPortNum := congrArg Prod.fst hkey
        exact hsrc ▸ hself
  | @push params hstage hwhy hroom =>
      apply h.queueing
      intro p hp
      obtain rfl := List.mem_singleton.mp hp
      cases hwhy with
      | data ha hfind hinc => exact hs.selfPortNum_of_incarnation hinc
      | resumed ha ht => exact hs.senders _ (List.mem_of_getElem? ht)
      | ack hacc hacks =>
          exact hs.selfPortNum_of_open (checkSegment_accept hacc.verdict).2.1
  | drop _ _ _ hqueue => exact h.dequeue hqueue
  | pass _ _ _ hqueue =>
      have hrest := h.dequeue hqueue
      exact ⟨hrest.marked, hrest.sendQueue, hrest.senders⟩
  | @record env params rest i j now t _ _ _ hqueue =>
      have hrest : SlotsOk (Globals.setPort { g with sendQueue := rest } i
          (recordUnacked (g.ports i) j params now)) := (h.dequeue hqueue).setPort (h.marked i)
      exact ⟨hrest.marked, hrest.sendQueue, hrest.senders⟩
  | resend => exact ⟨h.marked, h.sendQueue, h.senders⟩
  | reset => exact h.setPort (by simp [TcpPort.closed, TcpPort.incarnation])
  | @takeOver i seg items hacc hstage hstate hsyn hqueues =>
      have hself : (g.ports i).selfPortNum ≠ 0 :=
        h.selfPortNum_of_open (by simp [hstage.state i, hstate])
      refine (h.setOpen (p := (g.ports i).takenOver seg) hself
        (by simp [TcpPort.takenOver])).queueing fun p hp => ?_
      rw [hqueues.mem hp]
      exact hself
  | @establish i seg hacc hstage hfrom hack =>
      refine h.setOpen (h.selfPortNum_of_open ?_) (by simp)
      rw [hstage.state i]
      exact (checkSegment_accept hacc.verdict).2.1
  | @finReply i seg items hacc hstage hstate hfin hqueues =>
      have hself : (s.g.ports i).selfPortNum ≠ 0 := hs.selfPortNum_of_open (by simp [hstate])
      have hself' : (g.ports i).selfPortNum ≠ 0 :=
        h.selfPortNum_of_open (by simp [hstage.state i, hstate])
      refine (h.queueing fun p hp => ?_).setOpen hself' (by simp)
      rw [hqueues.mem hp]
      exact hself
  | @finWait2 i seg hacc hstage hstate =>
      exact h.setOpen (h.selfPortNum_of_open (by simp [hstage.state i, hstate])) (by simp)
  | @timeWait i seg now hacc hstage hstate =>
      refine h.setOpen (h.selfPortNum_of_open ?_) (by simp)
      rw [hstage.state i]
      exact (checkSegment_accept hacc.verdict).2.1
  | @close self other addr i items hcmd hstage hfind hqueues =>
      obtain ⟨⟨env, rfl⟩, hin⟩ := hcmd
      have hself : self ≠ 0 := by simpa [sparesFreeSlots, hrunning env rfl, hin, hfind] using hc
      have hselfs : (s.g.ports i).selfPortNum ≠ 0 := findPort_selfPortNum hfind ▸ hself
      have hselfg : (g.ports i).selfPortNum ≠ 0 :=
        (TcpPort.selfPortNum_of_settled (hstage.settled i)).symm ▸ hselfs
      refine (h.setOpen (p := { g.ports i with state := .finWait1 }) hselfg
        (by simp)).queueing fun p hp => ?_
      rw [hqueues.mem hp]
      exact hselfs
  | @listen self onReceive onConnect onDisconnect i hcmd hstage hunused =>
      obtain ⟨⟨env, rfl⟩, hin⟩ := hcmd
      have hsem : env.semaphore = true := semaphore_of_not_fails hmade hin rfl
      have hself : self ≠ 0 := by
        simpa [sparesFreeSlots, hrunning env rfl, hin, hunused, hsem] using hc
      have halloc : SlotsOk { g with nextAddr := g.nextAddr + 1 } :=
        ⟨h.marked, h.sendQueue, h.senders⟩
      exact halloc.setOpen hself (by simp)
  | @connect self other addr onReceive onConnect onDisconnect i port items hcmd hstage hunused
      hport hqueues =>
      obtain ⟨⟨env, rfl⟩, hin⟩ := hcmd
      have hsem : env.semaphore = true := semaphore_of_not_fails hmade hin rfl
      have hself : self ≠ 0 := by
        simpa [sparesFreeSlots, hrunning env rfl, hin, hunused, hsem] using hc
      have halloc : SlotsOk { g with nextAddr := g.nextAddr + 1 } :=
        ⟨h.marked, h.sendQueue, h.senders⟩
      subst hport
      apply (halloc.setOpen hself (by simp [connectingPort])).queueing
      intro p hp
      rw [hqueues.mem hp]
      exact hself

/-- Under the condition every step keeps the marks right. -/
theorem SlotsOk.step {s s' : System} {a : Action} (hs : SlotsOk s.g)
    (hc : sparesFreeSlots s a = true) (h : step s a = some s') : SlotsOk s'.g := by
  by_cases hmade : SemaphoreFails s a
  · exact hs.alike (alike_of_semaphoreFails h hmade)
  · have hrunning : ∀ env, a = .tcpTask env → s.tcpTask = .running :=
      fun env ha => running_of_task (ha ▸ h)
    exact step_moves alike (fun g g' => hs.move hrunning hmade hc) h hs

/-- A step writes no number into a slot that has none, unless it overwrites the slot. -/
theorem step_selfPortNum {s s' : System} {a : Action} (h : step s a = some s') {i : PortIdx}
    (hfree : (s.g.ports i).selfPortNum = 0) (hkept : ¬ Overwrites s a i) :
    (s'.g.ports i).selfPortNum = 0 := by
  by_cases hmade : SemaphoreFails s a
  · rw [TcpPort.selfPortNum_of_settled ((alike_of_semaphoreFails h hmade).settled i), hfree]
  · have hrunning : ∀ env, a = .tcpTask env → s.tcpTask = .running :=
      fun env ha => running_of_task (ha ▸ h)
    refine step_moves (P := fun g => (g.ports i).selfPortNum = 0) (fun hsame hg => ?_)
      (fun g g' hm hg => ?_) h hfree
    · rw [TcpPort.selfPortNum_of_settled (hsame.settled i), hg]
    · rcases hm.selfPortNum hrunning hmade i with hsame | hzero | hover
      · rw [hsame, hg]
      · exact hzero
      · exact absurd hover hkept

/-- A slot with no number is vacant. -/
theorem FreeMarked.vacant {g : Globals} (h : FreeMarked g) {i : PortIdx}
    (hzero : (g.ports i).selfPortNum = 0) : (g.ports i).Vacant := (h i).mp hzero

/-- A key with a number finds no vacant slot. -/
theorem FreeMarked.not_vacant {g : Globals} (h : FreeMarked g) {self other : BitVec 16}
    {addr : Ipv4Addr} {i : PortIdx} (hfind : findPort g self other addr = some i)
    (hself : self ≠ 0) : ¬ (g.ports i).Vacant := fun hvacant =>
  hself ((findPort_selfPortNum hfind).symm.trans ((h i).mpr hvacant))

theorem SlotsOk.actsOn {s : System} {a : Action} {i : PortIdx} (hs : SlotsOk s.g)
    (hc : sparesFreeSlots s a = true) (h : ActsOn s a i) : ¬ (s.g.ports i).Vacant := by
  cases h with
  | segment hrunning hin hverdict =>
      intro hvacant
      rcases hverdict with hverdict | hverdict
      · exact (checkSegment_accept hverdict).2.1 hvacant.1
      · exact (checkSegment_reset hverdict).2.1 hvacant.1
  | @close env self other addr i hrunning hin hfind =>
      apply hs.freeMarked.not_vacant hfind
      simpa [sparesFreeSlots, hrunning, hin, hfind] using hc
  | @request env params i hrunning hin hfind =>
      obtain ⟨set, rest, hqueue, -⟩ := selectInput_send hin
      exact hs.freeMarked.not_vacant hfind (hs.sendQueue params (by simp [hqueue]))
  | @send inCallback src dst addr data len timeout i hfind =>
      apply hs.freeMarked.not_vacant hfind
      simpa [sparesFreeSlots, hfind] using hc
  | resumed ht hincarnation =>
      intro hvacant
      simp [hvacant.incarnation] at hincarnation
  | resumedDeleted ht hready hdeleted hleft =>
      intro hvacant
      simp [sparesFreeSlots, ht, waitsForLeft, hready, hvacant, hleft] at hc

theorem SlotsOk.respectsSlots {s : System} {a : Action} (hs : SlotsOk s.g)
    (hc : sparesFreeSlots s a = true) : RespectsSlots s a where
  overwrites := fun i h => by
    cases h with
    | created _ _ _ _ hunused => exact hs.freeMarked.vacant (findUnusedPort_some hunused)
  actsOn := fun i h => hs.actsOn hc h
  marked := fun s' h => (hs.step hc h).freeMarked
  vacant := fun s' h i hvacant hkept =>
    (hs.step hc h).freeMarked.vacant
      (step_selfPortNum h ((hs.freeMarked i).mpr hvacant) hkept)

/-! ### The condition is needed -/

/-- A request that finds a slot in the semaphore of its port leaves numbers and states. -/
theorem tcpEnqueueReliable_settled {g : Globals} {params : TcpTransmitParams}
    {i : PortIdx} {sem sem' : CountingSemaphore maxUnacked}
    (hfind : findParamsPort g params = some i) (hsem : (g.ports i).unackedSlots = some sem)
    (htake : sem.take = some sem') (timeout : BitVec 32) :
    ∃ g' r, tcpEnqueueReliable g params timeout = .done g' r ∧
      ∀ j, (g'.ports j).settled = (g.ports j).settled := by
  have htaken : Taken g i params _ := enqueueTaken_spec hsem htake
  obtain ⟨items, -, halike⟩ := htaken.queues (B := False) hfind
  refine ⟨_, (enqueueTaken (g.setPort i { g.ports i with unackedSlots := some sem' }) i
    sem.handle params).2, ?_, halike.settled⟩
  have hfind' : findPort g params.srcPort params.dstPort params.dstIpv4Addr = some i := hfind
  simp only [tcpEnqueueReliable, hfind', hsem, htake]

/-- The slot that a new port with number 0 is in is the first one that its key finds. -/
theorem findPort_unused {g : Globals} {i : PortIdx} {p : TcpPort} {other : BitVec 16}
    {addr : Ipv4Addr} (hunused : findUnusedPort g = some i) (hp : p.key = (0, other, addr)) :
    findPort (g.setPort i p) 0 other addr = some i := by
  rw [findPort_eq_some_iff]
  refine ⟨by simpa using hp, ?_⟩
  intro j hj hkey
  have hself : (g.ports j).selfPortNum ≠ 0 := by
    simpa using (firstIdx_eq_some_iff.mp hunused).2 j hj
  rw [Globals.ports_setPort, Function.update_of_ne (ne_of_lt hj)] at hkey
  exact hself (congrArg Prod.fst hkey)

/-- The connection from port 0 that a connect command opens is in a slot marked as free. -/
theorem tcpConnectPortInternal_zero {g : Globals} {i : PortIdx}
    (hunused : findUnusedPort g = some i) (other : BitVec 16) (addr : Ipv4Addr)
    (onReceive onConnect onDisconnect : Option FnPtr) :
    ∃ g' r, tcpConnectPortInternal g 0 other addr onReceive onConnect onDisconnect true =
        .done g' r ∧ (g'.ports i).selfPortNum = 0 ∧ (g'.ports i).state = .synSent := by
  let port := connectingPort (newPort 0 g.nextAddr onReceive onConnect onDisconnect) other addr
  let created := Globals.setPort { g with nextAddr := g.nextAddr + 1 } i port
  have hconnect : tcpConnectPortInternal g 0 other addr onReceive onConnect onDisconnect true =
      tcpEnqueueReliable created (synRequest port addr) portMaxDelay := by
    simp [tcpConnectPortInternal, tcpCreatePortInternal, hunused, Globals.setPort, created, port]
  have hport : created.ports i = port := by simp [created]
  have hfind : findParamsPort created (synRequest port addr) = some i :=
    findPort_unused hunused rfl
  have hsem : (created.ports i).unackedSlots =
      some (CountingSemaphore.create maxUnacked g.nextAddr) := by
    rw [hport]
    rfl
  obtain ⟨g', r, henqueue, hsettled⟩ :=
    tcpEnqueueReliable_settled hfind hsem rfl portMaxDelay
  refine ⟨g', r, hconnect.trans henqueue, ?_, ?_⟩
  · rw [TcpPort.selfPortNum_of_settled (hsettled i), hport]
    rfl
  · rw [TcpPort.state_of_settled (hsettled i), hport]
    rfl

/-- A command that creates a port with number 0 leaves a port in a slot marked as free. -/
theorem step_create_zero {s : System} {env : TaskEnv} {cmd : TcpPortCmd} {i : PortIdx}
    (hrunning : s.tcpTask = .running) (hin : (selectInput s.g).2 = .cmd cmd)
    (hcreated : cmd.created? = some 0) (hsem : env.semaphore = true)
    (hunused : findUnusedPort s.g = some i) :
    ∃ s', step s (.tcpTask env) = some s' ∧ (s'.g.ports i).selfPortNum = 0 ∧
      (s'.g.ports i).state ≠ .closed := by
  obtain ⟨-, hports, -⟩ := selectInput_quiet (g := s.g) (by simp [hin])
  have hunused' : findUnusedPort (selectInput s.g).1 = some i := by
    unfold findUnusedPort at hunused ⊢
    rwa [hports]
  cases cmd with
  | close => cases hcreated
  | createAndListen self onReceive onConnect onDisconnect =>
      obtain rfl := Option.some.inj hcreated
      refine ⟨⟨(tcpListenPortInternal (selectInput s.g).1 0 onReceive onConnect onDisconnect
        true).1, .running⟩, ?_, ?_, ?_⟩
      · simp [step, hrunning, tcpTaskIteration, hin, executeInput, executeCmd, hsem, afterTask]
      · simp [tcpListenPortInternal, tcpCreatePortInternal, hunused', newPort]
      · simp [tcpListenPortInternal, tcpCreatePortInternal, hunused']
  | createAndConnect self other addr onReceive onConnect onDisconnect =>
      obtain rfl := Option.some.inj hcreated
      obtain ⟨g', r, hconnect, hself, hstate⟩ :=
        tcpConnectPortInternal_zero hunused' other addr onReceive onConnect onDisconnect
      refine ⟨⟨g', .running⟩, ?_, hself, by simp [hstate]⟩
      simp only [step, hrunning, tcpTaskIteration, hin, executeInput, executeCmd, hsem, hconnect,
        Outcome.bind, afterTask]

/-- A step that respects the free slots meets the condition. -/
theorem RespectsSlots.spares {s : System} {a : Action} (hmarked : FreeMarked s.g)
    (h : RespectsSlots s a) : sparesFreeSlots s a = true := by
  -- a new port with number 0 is in a slot that counts as free and is not vacant
  have hcreate : ∀ env cmd self, a = .tcpTask env → s.tcpTask = .running →
      (selectInput s.g).2 = .cmd cmd → cmd.created? = some self →
      (self != 0 || !env.semaphore || (findUnusedPort s.g).isNone) = true := by
    rintro env cmd self rfl hrunning hin hcreated
    by_contra hzero
    simp only [Bool.or_eq_true, bne_iff_ne, Bool.not_eq_true', Option.isNone_iff_eq_none, not_or,
      not_not, Bool.not_eq_false] at hzero
    obtain ⟨⟨rfl, hsem⟩, hsome⟩ := hzero
    obtain ⟨i, hunused⟩ := Option.ne_none_iff_exists'.mp hsome
    obtain ⟨s', hstep, hself, hopen⟩ := step_create_zero hrunning hin hcreated hsem hunused
    exact hopen ((h.marked s' hstep).vacant hself).1
  -- what a key with port number 0 finds is vacant
  have hfind : ∀ self other addr, (∀ i, findPort s.g self other addr = some i → ActsOn s a i) →
      (self != 0 || (findPort s.g self other addr).isNone) = true := by
    intro self other addr hacts
    by_contra hzero
    simp only [Bool.or_eq_true, bne_iff_ne, Option.isNone_iff_eq_none, not_or, not_not] at hzero
    obtain ⟨rfl, hsome⟩ := hzero
    obtain ⟨i, hi⟩ := Option.ne_none_iff_exists'.mp hsome
    exact h.actsOn i (hacts i hi) (hmarked.vacant (findPort_selfPortNum hi))
  cases a with
  | tcpTask env =>
      by_cases hrunning : s.tcpTask = .running
      · cases hin : (selectInput s.g).2 with
        | cmd cmd =>
            cases cmd with
            | createAndConnect self | createAndListen self =>
                simpa [sparesFreeSlots, hrunning, hin] using
                  hcreate env _ self rfl hrunning hin rfl
            | close self other addr =>
                simpa [sparesFreeSlots, hrunning, hin] using
                  hfind self other addr fun i hi => .close hrunning hin hi
        | scan | send | segment | nothing => simp [sparesFreeSlots, hin]
      · simp [sparesFreeSlots, hrunning]
  | tcpSend inCallback src dst addr data len timeout =>
      exact hfind src dst addr fun i hi => .send hi
  | resumeSender k deletedTake =>
      by_contra hspares
      simp only [sparesFreeSlots, Bool.or_eq_true, Bool.not_eq_true', not_or, Bool.not_eq_false,
        Option.all_eq_true, not_forall, waitsForLeft, Bool.and_eq_true, decide_eq_true_eq,
        beq_iff_eq] at hspares
      obtain ⟨rfl, t, ht, ⟨hready, hvacant⟩, hleft⟩ := hspares
      exact h.actsOn t.port (.resumedDeleted ht hready hvacant.2 hleft) hvacant
  | timeoutSender | tcpConnectPort | tcpListenPort | tcpClosePort | inputTcp | tick => rfl

theorem slotsOk_boot (net : NetContext) : SlotsOk (boot net).g := by
  refine ⟨fun i => ?_, ?_, ?_⟩ <;> simp [boot, TcpPort.incarnation]

/-- In a run that creates no port with number 0, in which no close or send for port 0 finds a slot
    and in which no send takes the deleted semaphore of a vacant slot, exactly the vacant slots are
    marked as free, and a next step respects them if and only if it does nothing of the kind
    either. -/
theorem free_slots_respected_iff {net : NetContext} {as : List Action} {s : System}
    (hg : Guarded step (fun s a => sparesFreeSlots s a = true) (boot net) as)
    (hrun : run step (boot net) as = some s) :
    FreeMarked s.g ∧ ∀ a, RespectsSlots s a ↔ sparesFreeSlots s a = true := by
  have hs : SlotsOk s.g :=
    run_invariant (P := fun s => SlotsOk s.g) (fun s a s' hs hc h => hs.step hc h)
      (slotsOk_boot net) hg hrun
  exact ⟨hs.freeMarked, fun a => ⟨fun h => h.spares hs.freeMarked, fun hc => hs.respectsSlots hc⟩⟩

/-- With port 80 the slot of the port that listens is not marked, and the next step respects
    the free ones. -/
theorem free_slots_respected_of_port_80 :
    ∃ s, run step (boot hostNet) [.tcpListenPort 80 none none none, iterates] = some s ∧
      (s.g.ports 0).state = .listen ∧ FreeMarked s.g ∧ RespectsSlots s iterates := by
  obtain ⟨s, hs, hend⟩ := run_any
    (show (run step (boot hostNet) [.tcpListenPort 80 none none none, iterates]).any (fun s =>
      (s.g.ports 0).state == .listen && sparesFreeSlots s iterates) = true by decide +kernel)
  simp only [Bool.and_eq_true, beq_iff_eq] at hend
  obtain ⟨hlisten, hspares⟩ := hend
  obtain ⟨hmarked, hrespects⟩ := free_slots_respected_iff (by decide +kernel) hs
  exact ⟨s, hs, hlisten, hmarked, (hrespects iterates).mpr hspares⟩

/-- Nine sends on the connection of `handshake` find eight slots, and the peer resets. -/
def resetWhileWaiting : List Action :=
  handshake peerNet.ip ++ List.replicate (maxUnacked + 1)
      (.tcpSend false 80 5000 peerNet.ip (some fun _ => 7) 1 portMaxDelay) ++
    List.replicate maxUnacked iterates ++ [arrives peerNet.ip 5000 80 1 1 4 [], iterates]

/-- Without port 0 the ninth send comes to wait for the deleted semaphore of a vacant slot. -/
example : Guarded step (fun s a => sparesFreeSlots s a = true) (boot hostNet) resetWhileWaiting ∧
    (run step (boot hostNet) resetWhileWaiting).any (fun s =>
      s.g.senders.any (waitsForLeft s.g)) = true :=
  ⟨by decide +kernel, by decide +kernel⟩

/-- The task takes the command to listen at one more port. -/
def takesListen (s : System) : Bool :=
  match (selectInput s.g).2 with
  | .cmd (.createAndListen _ _ _ _) => true
  | _ => false

theorem input_of_takesListen {s : System} (h : takesListen s = true) :
    ∃ self onReceive onConnect onDisconnect,
      (selectInput s.g).2 = .cmd (.createAndListen self onReceive onConnect onDisconnect) := by
  unfold takesListen at h
  split at h
  case h_1 self onReceive onConnect onDisconnect hcmd =>
    exact ⟨self, onReceive, onConnect, onDisconnect, hcmd⟩
  case h_2 => cases h

/-- With port 0 it is marked as free, and the next port that is created overwrites it. -/
theorem listening_slot_overwritten :
    ∃ s, run step (boot hostNet)
        [.tcpListenPort 0 none none none, iterates, .tcpListenPort 80 none none none] = some s ∧
      (s.g.ports 0).state = .listen ∧ ¬ FreeMarked s.g ∧ Overwrites s iterates 0 := by
  obtain ⟨s, hs, hend⟩ := run_any
    (show (run step (boot hostNet)
      [.tcpListenPort 0 none none none, iterates, .tcpListenPort 80 none none none]).any
        (fun s : System =>
        (s.g.ports 0).state == .listen && (s.g.ports 0).selfPortNum == 0 &&
          (s.tcpTask == .running && findUnusedPort s.g == some 0 && takesListen s)) = true by
            decide +kernel)
  simp only [Bool.and_eq_true, beq_iff_eq] at hend
  obtain ⟨⟨hlisten, hzero⟩, ⟨hrunning, hunused⟩, hin⟩ := hend
  obtain ⟨self, onReceive, onConnect, onDisconnect, hcmd⟩ := input_of_takesListen hin
  refine ⟨s, hs, hlisten, ?_, ?_⟩
  · intro hmarked
    have hclosed := (hmarked.vacant hzero).1
    simp [hlisten] at hclosed
  · exact .created hrunning hcmd rfl rfl hunused

end NetStack.Tcp
