import NetStack.Lib.History
import NetStack.Tcp.Proofs.Keys
import NetStack.Tcp.Proofs.Releases
import NetStack.Tcp.Proofs.Tiling

/-!
# Requests and the incarnations they were queued for

A request in `send_queue` names its connection by key, and is resolved only when it is
dequeued. `Owners` is the history of the queue: the incarnation that each queued request
belongs to, and the one that each transmitted request belonged to. The two part when a port
takes a key under which a request still waits, when a port that shares its key with another
gives it up, or when a task that waited on a deleted semaphore queues its request after all.
-/

namespace NetStack.Tcp
open NetStack.Lib

/-- The incarnation that a request queued by the step belongs to: that of the port that
    `tcp_send`, a close command or a segment resolved to, that of the waiting task, or that of
    the port `g` has in the place which a connect command filled. -/
def ownerOf (s : System) (a : Action) (g : Globals) : Option Nat :=
  match a with
  | .tcpSend _ src dst addr _ _ _ =>
      (findPort s.g src dst addr).bind fun i => (s.g.ports i).incarnation
  | .resumeSender k _ => s.g.senders[k]?.map (·.handle)
  | .tcpTask _ =>
      match (selectInput s.g).2 with
      | .segment seg =>
          match checkSegment s.g seg with
          | .accept i => (s.g.ports i).incarnation
          | .discard _ | .reset _ => none
      | .cmd (.createAndConnect _ _ _ _ _ _) =>
          (findUnusedPort s.g).bind fun i => (g.ports i).incarnation
      | .cmd (.close self other addr) =>
          (findPort s.g self other addr).bind fun i => (s.g.ports i).incarnation
      | .cmd (.createAndListen _ _ _ _) | .scan | .send _ | .nothing => none
  | _ => none

/-- The step takes a request out of `send_queue`. -/
def dequeues (s : System) : Action → Bool
  | .tcpTask _ =>
      match (selectInput s.g).2 with
      | .send _ => true
      | .scan | .segment _ | .cmd _ | .nothing => false
  | _ => false

/-- The history of `send_queue`: whose the queued requests are, and whose those were that have
    been transmitted. -/
structure Owners where
  queue : List (Option Nat) := []
  sent : List (Transmission × Option Nat) := []

/-- What a step adds to the history of the queue. -/
def Owners.note (s : System) (a : Action) (s' : System) (o : Owners) : Owners :=
  if dequeues s a then
    { queue := o.queue.tail
      sent := o.sent ++
        ((transmissions s'.g.log).drop (transmissions s.g.log).length).map
          fun t => (t, o.queue.headD none) }
  else
    { o with
      queue := o.queue ++
        List.replicate (s'.g.sendQueue.length - s.g.sendQueue.length) (ownerOf s a s'.g) }

/-- A request with the key is queued. -/
def keyQueued (g : Globals) (key : Key) : Bool := g.sendQueue.any fun p => p.key == key

/-- A port before `i` has the key. -/
def heldBefore (g : Globals) (i : PortIdx) (key : Key) : Bool :=
  (firstIdx fun j => decide (j < i) && (g.ports j).key == key).isSome

/-- When port `i` gives up its key, no other port has it or no request with it is queued. -/
def leavesKey (g : Globals) (i : PortIdx) : Bool :=
  !keyQueued g (g.ports i).key ||
    !otherHolds g i (g.ports i).selfPortNum (g.ports i).otherPortNum (g.ports i).otherIpv4Addr

/-- A port takes a key, and another gives one up, while no request with that key waits in
    `send_queue`; and a task that waited queues its request for the port whose slot it has
    taken, or for none. -/
def requestsKept (s : System) : Action → Bool
  | .tcpTask _ =>
      ((List.finRange maxPorts).all fun i =>
        !resetsPort s.g i (selectInput s.g).2 || leavesKey s.g i) &&
      match (selectInput s.g).2 with
      | .segment seg =>
          match checkSegment s.g seg with
          | .accept i =>
              !((s.g.ports i).state == .listen && seg.syn) || (s.g.ports i).key == seg.key ||
                (leavesKey s.g i && !keyQueued s.g seg.key)
          | .discard _ | .reset _ => true
      | .cmd (.createAndConnect self other addr _ _ _) =>
          (findUnusedPort s.g).all fun i =>
            leavesKey s.g i && !keyQueued s.g (self, other, addr) &&
              !heldBefore s.g i (self, other, addr)
      | .cmd (.createAndListen self _ _ _) =>
          (findUnusedPort s.g).all fun i =>
            leavesKey s.g i && (!keyQueued s.g (self, 0, ipv4AllZeroes) ||
              heldBefore s.g i (self, 0, ipv4AllZeroes))
      | .cmd (.close _ _ _) | .scan | .send _ | .nothing => true
  | .resumeSender k deletedTake =>
      (s.g.senders[k]?).all fun t =>
        (s.g.ports t.port).state == .closed || sendQueueLength ≤ s.g.sendQueue.length ||
          if (s.g.ports t.port).incarnation = some t.handle then
            (findParamsPort s.g t.params).all (· == t.port)
          else !deletedTake || (findParamsPort s.g t.params).isNone
  | _ => true

/-- The request would be transmitted by the incarnation `o`, or by no live port. -/
def Owned (g : Globals) (p : TcpTransmitParams) (o : Option Nat) : Prop :=
  ∀ i m, findParamsPort g p = some i → (g.ports i).incarnation = some m → o = some m

section Owned
variable {g g' : Globals} {p : TcpTransmitParams} {o : Option Nat}

theorem Owned.congr (hkey : ∀ j, (g'.ports j).key = (g.ports j).key)
    (hinc : ∀ j, (g'.ports j).incarnation = (g.ports j).incarnation) (h : Owned g p o) :
    Owned g' p o := by
  intro i m hfind hm
  exact h i m ((findParamsPort_congr hkey p).symm.trans hfind) ((hinc i).symm.trans hm)

theorem Owned.alike (hsame : Alike g g') (h : Owned g p o) : Owned g' p o :=
  h.congr hsame.key hsame.incarnation

/-- A port changes, but neither its key nor its incarnation. -/
theorem Owned.setPort {i : PortIdx} {port : TcpPort} (hkey : port.key = (g.ports i).key)
    (hinc : port.incarnation = (g.ports i).incarnation) (h : Owned g p o) :
    Owned (g.setPort i port) p o :=
  h.congr (fun _ => field_setPort rfl hkey) fun _ => field_setPort rfl hinc

/-- A port gets another key: requests that had its old key resolve to no live port, and those
    that have the new one to a port before it. -/
theorem Owned.rekey {i : PortIdx} {port : TcpPort}
    (hleave : (g.ports i).key = p.key → ∀ k ≠ i, (g.ports k).incarnation ≠ none →
      (g.ports k).key ≠ p.key)
    (htake : port.incarnation ≠ none → port.key = p.key → ∃ j < i, (g.ports j).key = p.key)
    (h : Owned g p o) : Owned (g.setPort i port) p o := by
  intro k m hfind hm
  obtain ⟨hkey, hfirst⟩ := findParamsPort_eq_some_iff.mp hfind
  by_cases hki : k = i
  · subst hki
    simp only [Globals.ports_setPort, Function.update_self] at hkey hm
    obtain ⟨j, hj, hkj⟩ := htake (by simp [hm]) hkey
    exact absurd (by simpa [ne_of_lt hj] using hkj) (hfirst j hj)
  · simp only [Globals.ports_setPort, Function.update_of_ne hki] at hkey hm
    refine h k m (findParamsPort_eq_some_iff.mpr ⟨hkey, fun j hj hkj => ?_⟩) hm
    by_cases hji : j = i
    · exact hleave (hji ▸ hkj) k hki (by simp [hm]) hkey
    · exact hfirst j hj (by simpa [hji] using hkj)

end Owned

/-! ### What a step does to queued requests -/

section Step
variable {s s' : System} {a : Action} {g g' : Globals}

theorem keyQueued_eq_false_iff {key : Key} :
    keyQueued g key = false ↔ ∀ p ∈ g.sendQueue, p.key ≠ key := by
  simp [keyQueued]

theorem heldBefore_iff {i : PortIdx} {key : Key} :
    heldBefore g i key = true ↔ ∃ j < i, (g.ports j).key = key := by
  rw [heldBefore, Option.isSome_iff_ne_none, ne_eq, firstIdx_eq_none_iff, not_forall]
  apply exists_congr
  intro j
  simp

/-- A request that is queued loses no port to another when port `i` gives up its key. -/
theorem leavesKey_apart {i : PortIdx} {p : TcpTransmitParams} (h : leavesKey g i = true)
    (hp : p ∈ g.sendQueue) (hkey : (g.ports i).key = p.key) {k : PortIdx} (hk : k ≠ i) :
    (g.ports k).key ≠ p.key := by
  rw [leavesKey, Bool.or_eq_true, Bool.not_eq_true', Bool.not_eq_true', keyQueued_eq_false_iff,
    otherHolds_eq_false_iff] at h
  rcases h with hnone | hother
  · exact absurd hkey.symm (hnone p hp)
  · exact hkey ▸ hother k hk

theorem leavesKey_of_resets {i : PortIdx} (hwhy : ResetCause s a i)
    (hc : requestsKept s a = true) : leavesKey s.g i = true := by
  obtain ⟨hresets, ⟨env, rfl⟩, -⟩ := hwhy.resetsPort
  simp only [requestsKept, Bool.and_eq_true, List.all_eq_true] at hc
  simpa [hresets] using hc.1 i (List.mem_finRange i)

/-- A port that is reset while the queue is as it was at the start of the step. -/
theorem Owned.reset {i : PortIdx} {p : TcpTransmitParams} {o : Option Nat}
    (hp : p ∈ s.g.sendQueue) (hwhy : ResetCause s a i) (hc : requestsKept s a = true)
    (hsettled : (g.ports i).settled = (s.g.ports i).settled)
    (hwhen : Stage s.g [] g ∨ Processes s a .scan ∧ ScanKeeps s g)
    (h : Owned g p o) : Owned (g.setPort i (g.ports i).closed) p o := by
  have hleaves := leavesKey_of_resets hwhy hc
  have hnone : (g.ports i).closed.incarnation = none := rfl
  refine h.rekey (fun hkey k hk hinc hkk => ?_) fun hlive => absurd hnone hlive
  have hkeyi : (s.g.ports i).key = p.key := (TcpPort.key_of_settled hsettled).symm.trans hkey
  apply leavesKey_apart hleaves hp hkeyi hk
  rcases hwhen with hstage | ⟨hscan, hkeeps⟩
  · rw [← hstage.key k]
    exact hkk
  · -- a port that the scan has reset has lost its port number
    rcases hkeeps k with ⟨hsame, -⟩ | hzero
    · rw [← hsame]
      exact hkk
    · have hself : (s.g.ports i).selfPortNum = 0 := by
        have hnum : (g.ports k).selfPortNum = (s.g.ports i).selfPortNum :=
          congrArg Prod.fst (hkk.trans hkeyi.symm)
        rw [← hnum, hzero]
      cases hwhy with
      | rst seg hin => cases hscan.input_eq hin
      | lastAck seg hacc => cases hscan.input_eq hacc.processes
      | timeWait _ _ hlive => exact absurd hself hlive

/-- A free port is filled. -/
theorem Owned.create {i : PortIdx} {p : TcpTransmitParams} {o : Option Nat} {port : TcpPort}
    (hp : p ∈ s.g.sendQueue) (hstage : Stage s.g [] g) (hleaves : leavesKey s.g i = true)
    (htake : port.key = p.key → ∃ j < i, (s.g.ports j).key = p.key) (h : Owned g p o) :
    Owned (Globals.setPort { g with nextAddr := g.nextAddr + 1 } i port) p o := by
  have halloc : Owned { g with nextAddr := g.nextAddr + 1 } p o := h.congr (fun _ => rfl) fun _ => rfl
  refine halloc.rekey (fun hkey k hk _ => ?_) fun _ hkey => ?_
  · rw [hstage.key k]
    exact leavesKey_apart hleaves hp ((hstage.key i).symm.trans hkey) hk
  · obtain ⟨j, hj, hkj⟩ := htake hkey
    exact ⟨j, hj, (hstage.key j).trans hkj⟩

/-- Under the condition a move leaves each request that was queued at the start of the step with
    its owner. -/
theorem Owned.move {p : TcpTransmitParams} {o : Option Nat} (hp : p ∈ s.g.sendQueue)
    (hc : requestsKept s a = true) (hm : Move s a s' g g')
    (hscan : Processes s a .scan → ScanKeeps s g) (h : Owned g p o) : Owned g' p o := by
  cases hm with
  | stay => exact h
  | wait | push | drop | pass | resend => exact h.congr (fun _ => rfl) fun _ => rfl
  | record =>
      exact Owned.setPort (g := { g with sendQueue := _ }) rfl rfl
        (h.congr (fun _ => rfl) fun _ => rfl)
  | reset hwhy hsettled hwhen =>
      exact h.reset hp hwhy hc hsettled (hwhen.imp_right fun hin => ⟨hin, hscan hin⟩)
  | establish | finWait2 | timeWait => exact h.setPort rfl rfl
  | finReply => exact Owned.setPort (g := Globals.queueing _ _) rfl rfl h
  | close => exact Owned.congr (fun _ => rfl) (fun _ => rfl) (h.setPort rfl rfl)
  | @takeOver i seg items hacc hstage hstate hsyn =>
      have hself := hacc.selfPortNum
      obtain ⟨⟨⟨env, rfl⟩, hin⟩, hverdict⟩ := hacc
      have hkey' : ((g.ports i).takenOver seg).key = seg.key := by
        simp [TcpPort.key, TcpPort.takenOver, Segment.key,
          TcpPort.selfPortNum_of_settled (hstage.settled i), hself]
      have hguard : (s.g.ports i).key = seg.key ∨
          leavesKey s.g i = true ∧ keyQueued s.g seg.key = false := by
        simp only [requestsKept, hin, hverdict, hstate, hsyn, Bool.and_eq_true] at hc
        simpa using hc.2
      refine Owned.congr (g := g.setPort i ((g.ports i).takenOver seg)) (fun _ => rfl)
        (fun _ => rfl) ?_
      rcases hguard with hsame | ⟨hleaves, hnone⟩
      · exact h.setPort (hkey'.trans (hsame.symm.trans (hstage.key i).symm)) rfl
      · refine h.rekey (fun hkey k hk _ => ?_) fun _ hkey => ?_
        · rw [hstage.key k]
          exact leavesKey_apart hleaves hp ((hstage.key i).symm.trans hkey) hk
        · exact absurd (hkey.symm.trans hkey') (keyQueued_eq_false_iff.mp hnone p hp)
  | @listen self onReceive onConnect onDisconnect i hcmd hstage hunused =>
      obtain ⟨⟨env, rfl⟩, hin⟩ := hcmd
      simp only [requestsKept, hin, hunused, Option.all_some, Bool.and_eq_true, Bool.or_eq_true,
        Bool.not_eq_true', keyQueued_eq_false_iff, heldBefore_iff] at hc
      obtain ⟨-, hleaves, htake⟩ := hc
      apply h.create hp hstage hleaves
      intro hkey
      have hlisten : p.key = (self, 0, ipv4AllZeroes) := hkey.symm
      rcases htake with hnone | hbefore
      · exact absurd hlisten (hnone p hp)
      · exact hlisten ▸ hbefore
  | @connect self other addr onReceive onConnect onDisconnect i port items hcmd hstage hunused
      hport =>
      obtain ⟨⟨env, rfl⟩, hin⟩ := hcmd
      simp only [requestsKept, hin, hunused, Option.all_some, Bool.and_eq_true,
        Bool.not_eq_true', keyQueued_eq_false_iff] at hc
      obtain ⟨-, ⟨hleaves, hnone⟩, -⟩ := hc
      have hfilled : Owned (Globals.setPort { g with nextAddr := g.nextAddr + 1 } i port) p o := by
        apply h.create hp hstage hleaves
        intro hkey
        subst hport
        exact absurd hkey.symm (hnone p hp)
      exact hfilled.congr (fun _ => rfl) fun _ => rfl

/-- The request belongs to the incarnation that the step queues for, in the state `g`. -/
def OwnedByStep (s : System) (a : Action) (g : Globals) (p : TcpTransmitParams) : Prop :=
  Owned g p (ownerOf s a g)

/-- The owner is the same in states with the same incarnations. -/
theorem ownerOf_congr (hinc : ∀ j, (g'.ports j).incarnation = (g.ports j).incarnation) :
    ownerOf s a g' = ownerOf s a g := by
  cases a with
  | tcpTask env =>
      simp only [ownerOf]
      split
      · rfl
      · simp only [hinc]
      · rfl
      all_goals rfl
  | _ => rfl

theorem OwnedByStep.congr {p : TcpTransmitParams}
    (hkey : ∀ j, (g'.ports j).key = (g.ports j).key)
    (hinc : ∀ j, (g'.ports j).incarnation = (g.ports j).incarnation)
    (h : OwnedByStep s a g p) : OwnedByStep s a g' p := by
  rw [OwnedByStep, ownerOf_congr hinc]
  exact Owned.congr hkey hinc h

/-- A request that resolves to port `i`, whose incarnation the step queues for. -/
theorem OwnedByStep.of_find {p : TcpTransmitParams} {i : PortIdx}
    (hfind : findParamsPort g p = some i) (howner : ownerOf s a g = (g.ports i).incarnation) :
    OwnedByStep s a g p := by
  intro k m hk hm
  obtain rfl := Option.some.inj (hfind.symm.trans hk)
  rw [howner, hm]

theorem Accepts.ownerOf {i : PortIdx} {seg : Segment} (h : Accepts s a i seg) (g : Globals) :
    Tcp.ownerOf s a g = (s.g.ports i).incarnation := by
  obtain ⟨⟨⟨env, rfl⟩, hin⟩, hverdict⟩ := h
  simp [Tcp.ownerOf, hin, hverdict]

/-- The requests that a step queues for no change of state. -/
theorem Pushes.ownedByStep {p : TcpTransmitParams} (hstage : Stage s.g [] g)
    (hroom : g.sendQueue.length < sendQueueLength) (hc : requestsKept s a = true)
    (h : Pushes s a p) : OwnedByStep s a g p := by
  cases h with
  | @data inCallback src dst addr data len timeout i block ha hfind hinc =>
      have hfind' : findParamsPort g (tcpSendParams (s.g.ports i) block len) = some i := by
        rw [hstage.findParamsPort]
        exact findParamsPort_of_findPort hfind rfl
      refine .of_find hfind' ?_
      simp [ha, ownerOf, hfind, hstage.incarnation i]
  | @resumed k deletedTake t ha ht hopen htaken =>
      intro i m hi hm
      rw [hstage.findParamsPort] at hi
      rw [hstage.incarnation i] at hm
      have hroom' : ¬ sendQueueLength ≤ s.g.sendQueue.length := by
        rw [hstage.sendQueue, List.append_nil] at hroom
        omega
      subst ha
      simp only [requestsKept, ht, Option.all_some, Bool.or_eq_true, beq_iff_eq, hopen,
        decide_eq_true_eq, hroom', false_or] at hc
      have howner : ownerOf s (.resumeSender k deletedTake) g = some t.handle := by
        simp [ownerOf, ht]
      rw [howner]
      by_cases hlive : (s.g.ports t.port).incarnation = some t.handle
      · rw [if_pos hlive, hi] at hc
        obtain rfl : i = t.port := by simpa using hc
        exact hlive.symm.trans hm
      · rw [if_neg hlive, htaken.resolve_left hlive, hi] at hc
        simp at hc
  | @ack i seg hacc hacks =>
      have hlisten : (s.g.ports i).state ≠ .listen := by
        simp only [acknowledges, Bool.and_eq_true, bne_iff_ne] at hacks
        exact hacks.2
      have hfind : findParamsPort g (replyParams (s.g.ports i) seg.srcIpv4Addr ACK) = some i := by
        rw [hstage.findParamsPort]
        exact findParamsPort_reply (checkSegment_accept hacc.verdict).1 hlisten ACK
      exact .of_find hfind ((hacc.ownerOf g).trans (hstage.incarnation i).symm)

/-- What a step that takes nothing out of the queue has added to it belongs to the incarnation
    that the step queues for. A scan adds nothing. -/
def AddsOwned (s : System) (a : Action) (g : Globals) : Prop :=
  ∃ items, g.sendQueue = s.g.sendQueue ++ items ∧ (Processes s a .scan → items = []) ∧
    ∀ p ∈ items, OwnedByStep s a g p

theorem AddsOwned.congr (hqueue : g'.sendQueue = g.sendQueue)
    (hkey : ∀ j, (g'.ports j).key = (g.ports j).key)
    (hinc : ∀ j, (g'.ports j).incarnation = (g.ports j).incarnation) (h : AddsOwned s a g) :
    AddsOwned s a g' := by
  obtain ⟨items, hitems, hscan, howned⟩ := h
  exact ⟨items, hqueue.trans hitems, hscan, fun p hp => (howned p hp).congr hkey hinc⟩

theorem AddsOwned.setPort {i : PortIdx} {port : TcpPort} (hkey : port.key = (g.ports i).key)
    (hinc : port.incarnation = (g.ports i).incarnation) (h : AddsOwned s a g) :
    AddsOwned s a (g.setPort i port) :=
  AddsOwned.congr (g := g) rfl (fun _ => field_setPort rfl hkey)
    (fun _ => field_setPort rfl hinc) h

theorem AddsOwned.move (hd : dequeues s a = false) (hc : requestsKept s a = true)
    (hm : Move s a s' g g') (h : AddsOwned s a g) : AddsOwned s a g' := by
  cases hm with
  | stay => exact h
  | wait | resend => exact h.congr rfl (fun _ => rfl) fun _ => rfl
  | drop ha hin | pass ha hin | record ha hin => simp [dequeues, ha, hin] at hd
  | establish | finWait2 | timeWait => exact h.setPort rfl rfl
  | @push params hstage hwhy hroom =>
      refine ⟨[params], by simp [hstage.sendQueue], ?_, ?_⟩
      · intro hscan
        obtain ⟨⟨env, rfl⟩, hin⟩ := hscan
        cases hwhy with
        | data ha | resumed ha => cases ha
        | ack hacc => cases hacc.processes.2.symm.trans hin
      · intro p hp
        obtain rfl := List.mem_singleton.mp hp
        exact OwnedByStep.congr (g := g) (fun _ => rfl) (fun _ => rfl)
          (hwhy.ownedByStep hstage hroom hc)
  | @reset i hwhy hsettled hwhen =>
      -- nothing has been added by the time of a reset
      obtain ⟨items, hitems, hscan, -⟩ := h
      have hnil : items = [] := by
        rcases hwhen with hstage | hin
        · have hqueue := hstage.sendQueue
          rw [hitems] at hqueue
          simpa using hqueue
        · exact hscan hin
      exact ⟨[], by simp [hitems, hnil], fun _ => rfl, by simp⟩
  | @takeOver i seg items hacc hstage hstate hsyn hqueues =>
      refine ⟨items, by simp [hstage.sendQueue], ?_, ?_⟩
      · intro hscan
        cases hscan.input_eq hacc.processes
      · intro p hp
        obtain rfl := hqueues.mem hp
        have hfind : findSegmentPort g seg = some i := by
          rw [findSegmentPort_congr hstage.key hstage.state]
          exact (checkSegment_accept hacc.verdict).1
        refine OwnedByStep.congr (g := g.setPort i ((g.ports i).takenOver seg)) (fun _ => rfl)
          (fun _ => rfl) (.of_find (findParamsPort_takenOver hfind (SYN + ACK)) ?_)
        have hsame : ((g.setPort i ((g.ports i).takenOver seg)).ports i).incarnation =
            (g.ports i).incarnation := field_setPort rfl rfl
        rw [hacc.ownerOf, hsame, hstage.incarnation i]
  | @finReply i seg items hacc hstage hstate hfin hqueues =>
      obtain ⟨acks, hacks, hscan, howned⟩ := h
      have hadded : AddsOwned s a (g.queueing items) := by
        refine ⟨acks ++ items, by simp [hacks], ?_, ?_⟩
        · intro hin
          cases hin.input_eq hacc.processes
        · intro p hp
          refine OwnedByStep.congr (g := g) (fun _ => rfl) (fun _ => rfl) ?_
          rcases List.mem_append.mp hp with hp | hp
          · exact howned p hp
          · obtain rfl := hqueues.mem hp
            have hfind : findParamsPort g (replyParams (s.g.ports i) seg.srcIpv4Addr (FIN + ACK)) =
                some i := by
              rw [hstage.findParamsPort]
              exact findParamsPort_reply (checkSegment_accept hacc.verdict).1 (by simp [hstate]) _
            exact .of_find hfind ((hacc.ownerOf g).trans (hstage.incarnation i).symm)
      exact hadded.setPort rfl rfl
  | @close self other addr i items hcmd hstage hfind hqueues =>
      refine ⟨items, by simp [Globals.setState, hstage.sendQueue], ?_, ?_⟩
      · intro hin
        cases hin.input_eq hcmd
      · intro p hp
        obtain rfl := hqueues.mem hp
        refine OwnedByStep.congr (g := g.setState i .finWait1) (fun _ => rfl) (fun _ => rfl)
          (.of_find (findParamsPort_closing hstage hfind) ?_)
        obtain ⟨⟨env, rfl⟩, hin⟩ := hcmd
        have hsame : ((g.setState i .finWait1).ports i).incarnation = (g.ports i).incarnation :=
          field_setPort rfl rfl
        simp [ownerOf, hin, hfind, hsame, hstage.incarnation i]
  | listen hcmd hstage hunused =>
      exact ⟨[], by simp [hstage.sendQueue], fun _ => rfl, by simp⟩
  | @connect self other addr onReceive onConnect onDisconnect i port items hcmd hstage hunused
      hport hqueues =>
      refine ⟨items, by simp [hstage.sendQueue], ?_, ?_⟩
      · intro hin
        cases hin.input_eq hcmd
      · intro p hp
        obtain rfl := hqueues.mem hp
        obtain ⟨⟨env, rfl⟩, hin⟩ := hcmd
        simp only [requestsKept, hin, hunused, Option.all_some, Bool.and_eq_true,
          Bool.not_eq_true', ← Bool.not_eq_true, heldBefore_iff] at hc
        have hfirst := hc.2.2
        subst hport
        refine OwnedByStep.of_find (i := i) (findParamsPort_eq_some_iff.mpr ⟨?_, ?_⟩) ?_
        · simp [TcpPort.key, TcpTransmitParams.key, connectingPort, synRequest]
        · rintro j hj hkj
          refine hfirst ⟨j, hj, ?_⟩
          rw [← hstage.key j]
          simp only [Globals.ports_queueing, Globals.ports_setPort,
            Function.update_of_ne (ne_of_lt hj)] at hkj
          exact hkj
        · simp [ownerOf, hin, hunused]

/-- A step without a dequeued request transmits nothing of the queue, and one with such a request
    transmits it through the port it resolves to. -/
def SendsFirst (s : System) (g : Globals) : Prop :=
  ∃ new, transmissions g.log = transmissions s.g.log ++ new ∧
    ∀ t ∈ new, ∃ params rest i, s.g.sendQueue = params :: rest ∧
      findParamsPort s.g params = some i ∧ t.incarnation = (s.g.ports i).incarnation

theorem SendsFirst.congr (hlog : transmissions g'.log = transmissions g.log)
    (h : SendsFirst s g) : SendsFirst s g' := by
  obtain ⟨new, hnew, hsent⟩ := h
  exact ⟨new, hlog.trans hnew, hsent⟩

theorem SendsFirst.emit {params : TcpTransmitParams} {rest : List TcpTransmitParams} {i : PortIdx}
    {t : Transmission} {n : BitVec 32} (hlog : transmissions g'.log = transmissions g.log ++ [t])
    (hstage : Stage s.g [] g) (hqueue : g.sendQueue = params :: rest)
    (hfind : findParamsPort g params = some i) (ht : Sends g i params n t)
    (h : SendsFirst s g) : SendsFirst s g' := by
  obtain ⟨new, hnew, hsent⟩ := h
  refine ⟨new ++ [t], by rw [hlog, hnew, List.append_assoc], ?_⟩
  intro u hu
  rcases List.mem_append.mp hu with hu | hu
  · exact hsent u hu
  · obtain rfl := List.mem_singleton.mp hu
    refine ⟨params, rest, i, ?_, ?_, ?_⟩
    · rw [← hqueue, hstage.sendQueue, List.append_nil]
    · rw [← hstage.findParamsPort]
      exact hfind
    · rw [ht.incarnation, hstage.incarnation]

theorem SendsFirst.move (hd : dequeues s a = true) (hm : Move s a s' g g')
    (h : SendsFirst s g) : SendsFirst s g' := by
  cases hm with
  | stay | wait | push | drop | reset | takeOver | establish | finReply | finWait2 | timeWait
  | close | listen | connect => exact h
  | pass ha hin hstage hqueue hfind hplain ht =>
      exact SendsFirst.emit (g := g) (transmissions_emit _ _) hstage hqueue hfind ht h
  | record ha hin hstage hqueue hfind hconsumes ht =>
      exact SendsFirst.emit (g := g) (transmissions_emit _ _) hstage hqueue hfind ht h
  | resend hin =>
      cases a with
      | tcpTask env => simp [dequeues, hin] at hd
      | _ => cases hd

theorem sendQueue_tcpSendInternal (g : Globals) (params : TcpTransmitParams) (env : SendEnv) :
    (tcpSendInternal g params env).1.sendQueue = g.sendQueue := by
  have hipv4 : ∀ (g : Globals) (t : Transmission),
      (sendIpv4Packet g t).1.sendQueue = g.sendQueue := by
    intro g t
    unfold sendIpv4Packet
    split <;> simp
  unfold tcpSendInternal
  split
  · simp [Globals.warn]
  · simp only [sendAllocated]
    split
    · simp [Globals.warn]
    · split
      · split
        · simp [Globals.warn]
        · simp [sendDatagram, hipv4]
      · simp [sendDatagram, hipv4]

/-- A step that dequeues a request takes the oldest and adds none. -/
theorem sendQueue_of_dequeues (hd : dequeues s a = true) (h : step s a = some s') :
    s'.g.sendQueue = s.g.sendQueue.tail := by
  cases a with
  | tcpTask env =>
      have hfinal := step_task_final h
      cases hin : (selectInput s.g).2 with
      | send params =>
          obtain ⟨set, rest, hqueue, hsel⟩ := selectInput_send hin
          rw [tcpTaskIteration, hin, hsel] at hfinal
          rw [← Option.some.inj hfinal, hqueue]
          simp only [executeSend]
          split <;> simp [Globals.warn, sendQueue_tcpSendInternal]
      | scan | segment | cmd | nothing => simp [dequeues, hin] at hd
  | _ => cases hd

/-- Every queued request would be transmitted by its owner if at all, and every transmitted one
    was. -/
structure OwnersOk (s : System) (o : Owners) : Prop where
  queue : List.Forall₂ (Owned s.g) s.g.sendQueue o.queue
  sent : ∀ x ∈ o.sent, ∀ m, x.1.incarnation = some m → x.2 = some m

/-- The requests that were queued before a step keep their owners in it. -/
theorem owned_step {owners : List (Option Nat)} (hc : requestsKept s a = true)
    (h : step s a = some s') (hs : List.Forall₂ (Owned s.g) s.g.sendQueue owners) :
    List.Forall₂ (Owned s'.g) s.g.sendQueue owners := by
  have hall : ∀ p ∈ s.g.sendQueue, ∀ o, Owned s.g p o → Owned s'.g p o := by
    intro p hp o howned
    have hkept := step_moves
      (P := fun g => Owned g p o ∧ (Processes s a .scan → ScanKeeps s g))
      (fun hsame hg => ⟨hg.1.alike hsame, fun hin => (hg.2 hin).alike hsame⟩)
      (fun g g' hm hg => ⟨hg.1.move hp hc hm hg.2, fun hin => (hg.2 hin).move hin hm⟩) h
      ⟨howned, fun _ i => .inl ⟨rfl, rfl⟩⟩
    exact hkept.1
  rw [List.forall₂_iff_zip] at hs ⊢
  exact ⟨hs.1, fun hmem => hall _ (List.of_mem_zip hmem).1 _ (hs.2 hmem)⟩

theorem OwnersOk.step {o : Owners} (hs : OwnersOk s o) (hc : requestsKept s a = true)
    (h : step s a = some s') : OwnersOk s' (o.note s a s') := by
  have hkept := owned_step hc h hs.queue
  unfold Owners.note
  cases hd : dequeues s a with
  | true =>
      simp only [if_true]
      constructor
      · rw [sendQueue_of_dequeues hd h, ← List.drop_one, ← List.drop_one]
        exact List.forall₂_drop 1 hkept
      · intro x hx m hm
        rcases List.mem_append.mp hx with hx | hx
        · exact hs.sent x hx m hm
        · obtain ⟨new, hnew, hsent⟩ := step_moves (P := SendsFirst s)
            (fun hsame => SendsFirst.congr hsame.transmissions)
            (fun g g' => SendsFirst.move hd) h ⟨[], by simp, by simp⟩
          rw [hnew, List.drop_left] at hx
          obtain ⟨t, ht, rfl⟩ := List.mem_map.mp hx
          obtain ⟨params, rest, i, hqueue, hfind, hinc⟩ := hsent t ht
          -- the request that has been dequeued was the first, and so was its owner
          have hfirst := hs.queue
          rw [hqueue] at hfirst
          generalize o.queue = owners at hfirst ⊢
          cases hfirst with
          | cons howned _ => exact howned i m hfind (hinc.symm.trans hm)
  | false =>
      simp only [Bool.false_eq_true, if_false]
      refine ⟨?_, hs.sent⟩
      obtain ⟨items, hitems, -, howned⟩ := step_moves (P := AddsOwned s a)
        (fun hsame hg => hg.congr hsame.sendQueue hsame.key hsame.incarnation)
        (fun g g' => AddsOwned.move hd hc) h ⟨[], by simp, fun _ => rfl, by simp⟩
      have hlen : s'.g.sendQueue.length - s.g.sendQueue.length = items.length := by
        rw [hitems, List.length_append]
        omega
      rw [hlen, hitems]
      apply List.rel_append hkept
      clear hlen hitems
      induction items with
      | nil => exact .nil
      | cons p items ih =>
          exact .cons (howned p List.mem_cons_self)
            (ih fun q hq => howned q (List.mem_cons_of_mem p hq))

end Step

/-- As long as the condition holds, a request is transmitted, if at all, by the incarnation that
    it was queued for. -/
theorem requests_never_cross {net : NetContext} {as : List Action} {x : System × Owners}
    (hrun : run (withHistory step Owners.note) (boot net, {}) as = some x)
    (hg : Guarded step (fun s a => requestsKept s a = true) (boot net) as)
    {t : Transmission} {o : Option Nat} (ht : (t, o) ∈ x.2.sent) {m : Nat}
    (hm : t.incarnation = some m) : o = some m := by
  have hboot : OwnersOk (boot net) {} := ⟨.nil, by simp⟩
  have hinv : OwnersOk x.1 x.2 :=
    history_invariant hrun hg hboot fun s o a s' hs hc h => hs.step hc h
  exact hinv.sent _ ht m hm

/-- The peer of a handshake is sent three bytes. -/
def sendsThree : List Action :=
  handshake peerNet.ip ++
    [.tcpSend false 80 5000 peerNet.ip (some fun _ => 7) 3 portMaxDelay, iterates]

/-- They are transmitted by the incarnation they were queued for. -/
theorem sent_payload_owned :
    ∃ x t m, run (withHistory step Owners.note) (boot hostNet, {}) sendsThree = some x ∧
      (t, some m) ∈ x.2.sent ∧ t.incarnation = some m ∧ t.params.data.isSome = true := by
  obtain ⟨x, hx, hend⟩ := run_any
    (show (run (withHistory step Owners.note) (boot hostNet, {}) sendsThree).any (fun x =>
      x.2.sent.any fun e => e.1.params.data.isSome && e.1.incarnation.isSome) = true by
        decide +kernel)
  obtain ⟨⟨t, o⟩, ht, hsome⟩ := List.any_eq_true.mp hend
  simp only [Bool.and_eq_true] at hsome
  obtain ⟨m, hm⟩ := Option.isSome_iff_exists.mp hsome.2
  have howner := requests_never_cross hx (by decide +kernel) ht hm
  exact ⟨x, t, m, hx, howner ▸ ht, hm, hsome.1⟩

/-- The host listens again once the handshake is over; the peer resets the connection and connects
    once more from the same port, and the application sends three bytes before the host has
    looked at either segment. -/
def reconnected : List Action :=
  handshake peerNet.ip ++ [.tcpListenPort 80 (some 1) (some 2) (some 3), iterates,
    arrives peerNet.ip 5000 80 1 1 0b100 [], arrives peerNet.ip 5000 80 9 0 SYN [],
    .tcpSend false 80 5000 peerNet.ip (some fun _ => 7) 3 portMaxDelay, iterates, iterates,
    iterates]

/-- The bytes are transmitted with the first sequence number of the new connection. -/
theorem payload_crosses :
    ∃ x t n m, run (withHistory step Owners.note) (boot hostNet, {}) reconnected = some x ∧
      (t, some n) ∈ x.2.sent ∧ t.incarnation = some m ∧ n < m ∧
      t.params.data.isSome = true ∧ t.seqNum = 0 := by
  obtain ⟨x, hx, hend⟩ := run_any
    (show (run (withHistory step Owners.note) (boot hostNet, {}) reconnected).any (fun x =>
      x.2.sent.any fun e => e.1.params.data.isSome && e.1.seqNum == 0 &&
        e.2.any fun n => e.1.incarnation.any fun m => decide (n < m)) = true by decide +kernel)
  obtain ⟨⟨t, o⟩, ht, hcross⟩ := List.any_eq_true.mp hend
  simp only [Bool.and_eq_true, beq_iff_eq] at hcross
  obtain ⟨⟨hdata, hseq⟩, hcrossed⟩ := hcross
  obtain ⟨n, rfl, howned⟩ := (Option.any_eq_true _ _).mp hcrossed
  obtain ⟨m, hm, hlater⟩ := (Option.any_eq_true _ _).mp howned
  exact ⟨x, t, n, m, hx, ht, hm, of_decide_eq_true hlater, hdata, hseq⟩

end NetStack.Tcp
