import NetStack.Ipv4.Task
import NetStack.Tcp.Proofs.Primitives
import NetStack.Tcp.Proofs.Scan

/-!
# What becomes of heap blocks

A payload or a datagram is a token, the address of its block. `owned` counts the places of the
component that hold it, `spent` the times it has been freed or handed to IPv4, and `born`
the times `tcp_send_internal` has allocated it. `Accounts` says that from one state to another,
with what the running call holds in its hand, the three amounts balance.
-/

namespace NetStack.Tcp
open NetStack.Lib

/-- What `send_queue` holds. -/
def queuedTokens (g : Globals) : List Nat := g.sendQueue.flatMap fun params => tokens params.data

/-- What the tasks hold that wait in `tcp_enqueue_reliable`. -/
def waitingTokens (g : Globals) : List Nat := g.senders.flatMap fun t => tokens t.params.data

/-- What the entries of the ports hold. -/
def unackedTokens (g : Globals) : List Nat :=
  (List.finRange maxPorts).flatMap fun i =>
    (List.finRange maxUnacked).flatMap fun j => tokens ((g.ports i).unacked j).data

/-- What an event frees. -/
def Event.freed : Event → List Nat
  | .free addr => [addr]
  | _ => []

/-- What `tcp_send_internal` has allocated at an event. -/
def Event.allocated : Event → List Nat
  | .malloc addr => [addr]
  | _ => []

/-- What the component has freed. -/
def freedTokens (log : List Event) : List Nat := log.flatMap Event.freed

/-- What `tcp_send_internal` has allocated. -/
def allocatedTokens (log : List Event) : List Nat := log.flatMap Event.allocated

/-- The tokens of IPv4 items. -/
def packetTokens (items : List Ipv4TransmitParams) : List Nat :=
  items.flatMap fun item => tokens item.data

section Counts
variable (x : Nat)

/-- How often a data pointer holds the token. -/
def holds (data : Option Block) : Nat := (tokens data).count x

/-- How often the entries hold the token. -/
def entriesHold (g : Globals) : Nat :=
  ∑ i : PortIdx, ∑ j : UnackedIdx, holds x ((g.ports i).unacked j).data

/-- How often the component holds the token. -/
def owned (g : Globals) : Nat :=
  (queuedTokens g).count x + (waitingTokens g).count x + entriesHold x g

/-- How often the token has been freed or handed to IPv4. -/
def spent (g : Globals) : Nat :=
  (freedTokens g.log).count x + (packetTokens (handedOver g.log)).count x

/-- How often `tcp_send_internal` has allocated the token. -/
def born (g : Globals) : Nat := (allocatedTokens g.log).count x

@[simp] theorem holds_none : holds x none = 0 := rfl

theorem count_unackedTokens (g : Globals) : (unackedTokens g).count x = entriesHold x g := by
  simp only [unackedTokens, entriesHold, List.count_flatMap, Fin.sum_univ_def, Function.comp_def,
    holds]

/-- An entry changes. -/
theorem entriesHold_setPort (g : Globals) (i : PortIdx) (p : TcpPort) :
    entriesHold x (g.setPort i p) + ∑ j, holds x ((g.ports i).unacked j).data =
      entriesHold x g + ∑ j, holds x (p.unacked j).data := by
  have hsum := sum_update (fun i => ∑ j, holds x ((g.ports i).unacked j).data) i
    (∑ j, holds x (p.unacked j).data)
  have hports : ∀ k, ∑ j, holds x (((g.setPort i p).ports k).unacked j).data =
      Function.update (fun i => ∑ j, holds x ((g.ports i).unacked j).data) i
        (∑ j, holds x (p.unacked j).data) k := by
    intro k
    by_cases hk : k = i
    · subst hk
      simp
    · simp [hk]
  simpa only [entriesHold, hports] using hsum

theorem sum_holds_update (unacked : UnackedIdx → TcpUnacked) (j : UnackedIdx)
    (entry : TcpUnacked) :
    ∑ k, holds x (Function.update unacked j entry k).data + holds x (unacked j).data =
      ∑ k, holds x (unacked k).data + holds x entry.data := by
  have hsum := sum_update (fun k => holds x (unacked k).data) j (holds x entry.data)
  have hdata : ∀ k, holds x (Function.update unacked j entry k).data =
      Function.update (fun k => holds x (unacked k).data) j (holds x entry.data) k := by
    intro k
    by_cases hk : k = j
    · subst hk
      simp
    · simp [hk]
  simpa only [hdata] using hsum

theorem entriesHold_setUnacked (g : Globals) (i : PortIdx) (j : UnackedIdx)
    (entry : TcpUnacked) :
    entriesHold x (g.setUnacked i j entry) + holds x ((g.ports i).unacked j).data =
      entriesHold x g + holds x entry.data := by
  have hport := entriesHold_setPort x g i
    { g.ports i with unacked := Function.update (g.ports i).unacked j entry }
  have hentry := sum_holds_update x (g.ports i).unacked j entry
  simp only [Globals.setUnacked]
  dsimp only at hport
  omega

end Counts

/-- An entry that is not in use holds no payload. -/
def IdleEmpty (g : Globals) : Prop :=
  ∀ i j, ((g.ports i).unacked j).inUse = false → ((g.ports i).unacked j).data = none

theorem IdleEmpty.setPort {g : Globals} (h : IdleEmpty g) {i : PortIdx} {p : TcpPort}
    (hp : ∀ j, (p.unacked j).inUse = false → (p.unacked j).data = none) :
    IdleEmpty (g.setPort i p) := by
  intro k j
  by_cases hk : k = i
  · subst hk
    simpa using hp j
  · simpa [hk] using h k j

theorem IdleEmpty.setUnacked {g : Globals} (h : IdleEmpty g) {i : PortIdx} {j : UnackedIdx}
    {entry : TcpUnacked} (hentry : entry.inUse = false → entry.data = none) :
    IdleEmpty (g.setUnacked i j entry) := by
  apply h.setPort
  intro k
  by_cases hk : k = j
  · subst hk
    simpa using hentry
  · simpa [hk] using h i k

/-- With `hand` and then `hand'` in the hand of the call, the token `x` has been neither lost nor
    made up from `g` to `g'`, and only a block that is new in between has been allocated. -/
structure Accounts (x : Nat) (g : Globals) (hand : Nat) (g' : Globals) (hand' : Nat) : Prop where
  balance : owned x g' + spent x g' + hand' + born x g = owned x g + spent x g + hand + born x g'
  nextAddr : g.nextAddr ≤ g'.nextAddr
  born : born x g' ≤ born x g + if g.nextAddr ≤ x ∧ x < g'.nextAddr then 1 else 0
  idle : IdleEmpty g → IdleEmpty g'

section Accounts
variable {x : Nat} {g g' g'' : Globals} {hand hand' hand'' : Nat}

theorem Accounts.refl (x : Nat) (g : Globals) (hand : Nat) : Accounts x g hand g hand :=
  ⟨rfl, le_rfl, Nat.le_add_right _ _, id⟩

theorem Accounts.trans (h : Accounts x g hand g' hand') (h' : Accounts x g' hand' g'' hand'') :
    Accounts x g hand g'' hand'' := by
  obtain ⟨hbalance, hnext, hborn, hidle⟩ := h
  obtain ⟨hbalance', hnext', hborn', hidle'⟩ := h'
  refine ⟨by omega, hnext.trans hnext', ?_, hidle' ∘ hidle⟩
  -- the addresses that are new in the two halves are different ones
  split_ifs at hborn hborn' ⊢ <;> omega

/-- More in the hand changes nothing. -/
theorem Accounts.frame (h : Accounts x g hand g' hand') (n : Nat) :
    Accounts x g (hand + n) g' (hand' + n) := by
  refine ⟨?_, h.nextAddr, h.born, h.idle⟩
  have := h.balance
  omega

/-- Nothing is allocated and the amounts balance. -/
theorem accounts_of_balance (hidle : IdleEmpty g → IdleEmpty g')
    (hnext : g'.nextAddr = g.nextAddr) (hborn : born x g' = born x g)
    (hbalance : owned x g' + spent x g' + hand' = owned x g + spent x g + hand) :
    Accounts x g hand g' hand' :=
  ⟨by omega, hnext.ge, by omega, hidle⟩

theorem owned_congr (hqueue : g'.sendQueue = g.sendQueue)
    (hsenders : (waitingTokens g').count x = (waitingTokens g).count x)
    (hentries : entriesHold x g' = entriesHold x g) : owned x g' = owned x g := by
  simp only [owned, queuedTokens, hqueue, hsenders, hentries]

theorem entriesHold_congr (hunacked : ∀ i, (g'.ports i).unacked = (g.ports i).unacked) :
    entriesHold x g' = entriesHold x g := by simp only [entriesHold, hunacked]

theorem spent_congr (hlog : g'.log = g.log) : spent x g' = spent x g := by
  simp only [spent, hlog]

theorem born_congr (hlog : g'.log = g.log) : born x g' = born x g := by simp only [born, hlog]

/-- The ports keep their entries, and the queue, the tasks and the log are the same. -/
theorem accounts_of_eq (hunacked : ∀ i, (g'.ports i).unacked = (g.ports i).unacked)
    (hqueue : g'.sendQueue = g.sendQueue)
    (hsenders : (waitingTokens g').count x = (waitingTokens g).count x)
    (hlog : g'.log = g.log) (hnext : g.nextAddr ≤ g'.nextAddr) : Accounts x g hand g' hand := by
  have howned := owned_congr hqueue hsenders (entriesHold_congr (x := x) hunacked)
  have hspent := spent_congr (x := x) hlog
  have hborn := born_congr (x := x) hlog
  exact ⟨by omega, hnext, by omega, fun h i => by simpa only [hunacked] using h i⟩

theorem unacked_setPort {i : PortIdx} {p : TcpPort} (h : p.unacked = (g.ports i).unacked)
    (k : PortIdx) : ((g.setPort i p).ports k).unacked = (g.ports k).unacked := by
  by_cases hk : k = i
  · subst hk
    simpa using h
  · simp [hk]

theorem accounts_setPort {i : PortIdx} {p : TcpPort} (h : p.unacked = (g.ports i).unacked) :
    Accounts x g hand (g.setPort i p) hand :=
  accounts_of_eq (unacked_setPort h) rfl rfl rfl le_rfl

@[simp] theorem spent_emit (x : Nat) (g : Globals) (e : Event) :
    spent x (g.emit e) = spent x g + (e.freed.count x + (packetTokens e.handedOver).count x) := by
  simp only [spent, freedTokens, handedOver, packetTokens, Globals.log_emit, List.flatMap_append,
    List.flatMap_singleton, List.count_append]
  omega

@[simp] theorem born_emit (x : Nat) (g : Globals) (e : Event) :
    born x (g.emit e) = born x g + e.allocated.count x := by
  simp only [Tcp.born, allocatedTokens, Globals.log_emit, List.flatMap_append,
    List.flatMap_singleton, List.count_append]

theorem owned_emit (x : Nat) (g : Globals) (e : Event) : owned x (g.emit e) = owned x g := rfl

theorem accounts_emit {e : Event} (he : e.plain = true) : Accounts x g hand (g.emit e) hand := by
  refine accounts_of_balance id (by rfl) ?_ ?_
  · cases e <;> simp_all [Event.plain, Event.allocated]
  · rw [owned_emit, spent_emit]
    cases e <;> simp_all [Event.plain, Event.freed, Event.handedOver, packetTokens]

theorem accounts_free (data : Option Block) :
    Accounts x g (holds x data) (g.free data) 0 := by
  cases data with
  | none => exact Accounts.refl x g 0
  | some block =>
      refine accounts_of_balance id (by rfl) ?_ ?_
      · simp [Globals.free, Event.allocated]
      · simp [Globals.free, owned_emit, Event.freed, Event.handedOver, packetTokens, holds, tokens]
        omega

theorem accounts_pushSend (params : TcpTransmitParams) :
    Accounts x g (holds x params.data) (g.pushSend params) 0 := by
  refine accounts_of_balance id (by rfl) (by rfl) ?_
  have hqueue : (queuedTokens (g.pushSend params)).count x =
      (queuedTokens g).count x + holds x params.data := by
    simp [queuedTokens, holds]
  have hentries : entriesHold x (g.pushSend params) = entriesHold x g := rfl
  have hsenders : waitingTokens (g.pushSend params) = waitingTokens g := rfl
  have hspent : spent x (g.pushSend params) = spent x g := rfl
  simp only [owned, hqueue, hentries, hsenders, hspent]
  omega

theorem waitingTokens_wakeSender (handle : Nat) (ts : List Sender) :
    (wakeSender handle ts).flatMap (fun t => tokens t.params.data) =
      ts.flatMap fun t => tokens t.params.data := by
  induction ts with
  | nil => rfl
  | cons t ts ih =>
      unfold wakeSender
      split
      · rfl
      · simp only [List.flatMap_cons, ih]

/-- A give wakes a task, which holds what it held. -/
theorem accounts_giveSlot (i : PortIdx) : Accounts x g hand (giveSlot g i) hand := by
  refine accounts_of_eq (fun k => ?_) (by simp) ?_ (by simp) (by simp)
  · rw [ports_giveSlot]
    exact unacked_setPort (g := g) (by rfl) k
  · unfold giveSlot
    split
    · rfl
    · split
      · simp only [waitingTokens, waitingTokens_wakeSender]
      · rfl

theorem accounts_clear {i : PortIdx} {j : UnackedIdx} (entry : TcpUnacked)
    (hdata : entry.data = none) :
    Accounts x g 0 (g.setUnacked i j entry) (holds x ((g.ports i).unacked j).data) := by
  refine accounts_of_balance (fun h => h.setUnacked fun _ => hdata) (by rfl) (by rfl) ?_
  have hentries := entriesHold_setUnacked x g i j entry
  have hqueue : queuedTokens (g.setUnacked i j entry) = queuedTokens g := rfl
  have hsenders : waitingTokens (g.setUnacked i j entry) = waitingTokens g := rfl
  have hspent : spent x (g.setUnacked i j entry) = spent x g := rfl
  rw [hdata, holds_none] at hentries
  simp only [owned, hqueue, hsenders, hspent]
  omega

/-- No primitive operation loses a token. -/
theorem Primitive.accounts {a b : Holding} (h : Primitive a b) (x : Nat) :
    Accounts x a.1 (holds x a.2) b.1 (holds x b.2) := by
  cases h with
  | field hunacked _ => exact accounts_setPort hunacked
  | emit he => exact accounts_emit he
  | give i => exact accounts_giveSlot i
  | take _ _ => exact accounts_setPort (by rfl)
  | delete _ => exact accounts_setPort (by rfl)
  | push params => exact accounts_pushSend params
  | free data => exact accounts_free data
  | clear hdata => exact accounts_clear _ hdata

theorem Primitives.accounts {a b : Holding} (h : Primitives a b) (x : Nat) :
    Accounts x a.1 (holds x a.2) b.1 (holds x b.2) := by
  induction h with
  | refl => exact Accounts.refl x a.1 _
  | tail _ h ih => exact ih.trans (h.accounts x)

end Accounts

/-! ### Transmissions -/

section Transmissions
variable {x : Nat} {g g' : Globals} {hand hand' : Nat} {params : TcpTransmitParams}
  {env : SendEnv}

theorem holds_some (x : Nat) (block : Block) :
    holds x (some block) = if block.addr = x then 1 else 0 := by
  simp [holds, tokens, List.count_singleton]

/-- Less in the hand changes nothing either. -/
theorem Accounts.unframe {n : Nat} (h : Accounts x g (hand + n) g' (hand' + n)) :
    Accounts x g hand g' hand' := by
  refine ⟨?_, h.nextAddr, h.born, h.idle⟩
  have := h.balance
  omega

theorem accounts_warn (w : Warning) : Accounts x g hand (g.warn w) hand := accounts_emit rfl

/-- The datagram that `tcp_send_internal` has allocated is in its hand. -/
theorem accounts_allocate (bytes : Memory) :
    Accounts x g hand (Globals.emit { g with nextAddr := g.nextAddr + 1 } (.malloc g.nextAddr))
      (hand + holds x (some ⟨g.nextAddr, bytes⟩)) := by
  have hborn : born x (Globals.emit { g with nextAddr := g.nextAddr + 1 } (.malloc g.nextAddr)) =
      born x g + if g.nextAddr = x then 1 else 0 := by
    rw [born_emit]
    simp [Event.allocated, List.count_singleton, born]
  have hspent : spent x (Globals.emit { g with nextAddr := g.nextAddr + 1 }
      (.malloc g.nextAddr)) = spent x g := by
    rw [spent_emit]
    simp [Event.freed, Event.handedOver, packetTokens, spent]
  have howned : owned x (Globals.emit { g with nextAddr := g.nextAddr + 1 }
      (.malloc g.nextAddr)) = owned x g := rfl
  have hnext : (Globals.emit { g with nextAddr := g.nextAddr + 1 } (.malloc g.nextAddr)).nextAddr =
      g.nextAddr + 1 := rfl
  rw [holds_some]
  dsimp only
  refine ⟨by omega, by omega, ?_, id⟩
  rw [hborn, hnext]
  split_ifs <;> omega

theorem accounts_sendIpv4Packet (t : Transmission) :
    Accounts x g (holds x t.ipv4.data) (sendIpv4Packet g t).1 0 := by
  unfold sendIpv4Packet
  split
  case isTrue haccepted =>
      refine accounts_of_balance id (by rfl) (by simp [Event.allocated]) ?_
      simp [owned_emit, Event.freed, Event.handedOver, haccepted, packetTokens, holds]
      omega
  case isFalse haccepted =>
      have hlogged : Accounts x g (holds x t.ipv4.data) (g.emit (.transmit t))
          (holds x t.ipv4.data) := by
        refine accounts_of_balance id (by rfl) (by simp [Event.allocated]) ?_
        simp [owned_emit, Event.freed, Event.handedOver, haccepted, packetTokens]
      exact hlogged.trans (accounts_free _)

theorem accounts_sendDatagram (i : PortIdx) (portSeqNum seqNum : BitVec 32) (addr : Nat)
    (heap bytes : Memory) (ipv4Accepts : Bool) :
    Accounts x g (holds x (some ⟨addr, bytes⟩))
      (sendDatagram g i params portSeqNum seqNum addr heap ipv4Accepts).1 0 := by
  unfold sendDatagram
  rw [holds_some x ⟨addr, bytes⟩]
  convert accounts_sendIpv4Packet _ using 1
  rw [holds_some]

/-- The payload of a recorded request goes into the entry. -/
theorem accounts_recordUnacked {i : PortIdx} {j : UnackedIdx} (now : BitVec 32)
    (hempty : ((g.ports i).unacked j).data = none) :
    Accounts x g (holds x params.data) (g.setPort i (recordUnacked (g.ports i) j params now)) 0 := by
  refine accounts_of_balance (fun h => h.setPort fun k => ?_) (by rfl) (by rfl) ?_
  · by_cases hk : k = j
    · subst hk
      simp [recordUnacked]
    · simpa [recordUnacked, hk] using h i k
  have hport := entriesHold_setPort x g i (recordUnacked (g.ports i) j params now)
  have hentry := sum_holds_update x (g.ports i).unacked j
    (recordUnacked (g.ports i) j params now |>.unacked j)
  have hnew : ((recordUnacked (g.ports i) j params now).unacked j).data = params.data := by
    simp [recordUnacked]
  have hunacked : (recordUnacked (g.ports i) j params now).unacked =
      Function.update (g.ports i).unacked j
        ((recordUnacked (g.ports i) j params now).unacked j) := by
    simp [recordUnacked]
  rw [← hunacked, hnew, hempty, holds_none] at hentry
  simp only [owned, queuedTokens, waitingTokens, spent, Globals.sendQueue_setPort,
    Globals.senders_setPort, Globals.log_setPort]
  omega

/-- A call of `tcp_send_internal` on a dequeued request keeps its payload or frees it, and hands
    on its datagram or frees it, when the port is found, a request that consumes sequence space
    finds an empty entry, and another one has no payload. -/
theorem accounts_tcpSendInternal (hidle : IdleEmpty g)
    (hkeeps : env.malloc = none ∨ ∃ i, findParamsPort g params = some i ∧
      (consumesSequence params = true → findEmptyUnacked (g.ports i) ≠ none) ∧
      (consumesSequence params = false → params.data = none)) :
    Accounts x g (holds x params.data) (tcpSendInternal g params env).1 0 := by
  unfold tcpSendInternal
  cases hmalloc : env.malloc with
  | none => exact (accounts_free _).trans (accounts_warn _)
  | some heap =>
      obtain ⟨i, hfind, hroom, hplain⟩ := hkeeps.resolve_left (by simp [hmalloc])
      dsimp only
      apply (accounts_allocate heap).trans
      generalize hg₁ : Globals.emit { g with nextAddr := g.nextAddr + 1 } (.malloc g.nextAddr) = g₁
      have hports : g₁.ports = g.ports := by subst hg₁; rfl
      have hfind₁ : findPort g₁ params.srcPort params.dstPort params.dstIpv4Addr = some i :=
        (findParamsPort_congr (by simp [hports]) params).trans hfind
      unfold sendAllocated
      rw [hfind₁]
      dsimp only
      cases hconsumes : consumesSequence params with
      | false =>
          rw [hplain hconsumes, holds_none, Nat.zero_add, if_neg Bool.false_ne_true]
          exact accounts_sendDatagram i _ _ _ heap heap _
      | true =>
          obtain ⟨j, hj⟩ := Option.ne_none_iff_exists'.mp (hroom hconsumes)
          rw [if_pos rfl, hports, hj]
          have hempty : ((g₁.ports i).unacked j).data = none := by
            rw [hports]
            exact hidle i j (by simpa using firstIdx_some hj)
          have hrecord : Accounts x g₁ (holds x params.data) _ 0 :=
            accounts_recordUnacked g₁.tick hempty
          have hrecorded := hrecord.frame (holds x (some ⟨g.nextAddr, heap⟩))
          rw [Nat.zero_add, hports] at hrecorded
          exact hrecorded.trans (accounts_sendDatagram i _ _ _ heap heap _)

/-- A retransmission through a port that is there. -/
theorem tcpSendInternal_of_plain {heap : Memory} {i : PortIdx} (hmalloc : env.malloc = some heap)
    (hfind : findParamsPort g params = some i) (hplain : consumesSequence params = false) :
    tcpSendInternal g params env =
      sendDatagram (Globals.emit { g with nextAddr := g.nextAddr + 1 } (.malloc g.nextAddr)) i
        params (g.ports i).seqNum params.seqNum g.nextAddr heap env.ipv4Accepts := by
  have hfind₁ : findPort (Globals.emit { g with nextAddr := g.nextAddr + 1 } (.malloc g.nextAddr))
      params.srcPort params.dstPort params.dstIpv4Addr = some i := hfind
  unfold tcpSendInternal sendAllocated
  rw [hmalloc]
  dsimp only
  rw [hfind₁, hplain]
  dsimp only
  rw [if_neg Bool.false_ne_true]
  rfl

theorem accounts_setUnacked_data {i : PortIdx} {j : UnackedIdx} {entry : TcpUnacked}
    (hdata : entry.data = ((g.ports i).unacked j).data)
    (huse : entry.inUse = ((g.ports i).unacked j).inUse) :
    Accounts x g hand (g.setUnacked i j entry) hand := by
  refine accounts_of_balance (fun h => h.setUnacked fun hidle => ?_) (by rfl) (by rfl) ?_
  · rw [hdata]
    exact h i j (huse ▸ hidle)
  have hentries := entriesHold_setUnacked x g i j entry
  rw [hdata] at hentries
  simp only [owned, queuedTokens, waitingTokens, spent, Globals.setUnacked,
    Globals.sendQueue_setPort, Globals.senders_setPort, Globals.log_setPort] at hentries ⊢
  omega

/-- A retransmission keeps the payload of its entry, frees it, or had none. -/
theorem accounts_retransmit {now : BitVec 32} {p : PortIdx} {j : UnackedIdx}
    (hkeeps : ((g.ports p).unacked j).data = none ∨ env.malloc = none ∨
      env.ipv4Accepts = true) :
    Accounts x g 0 (retransmit now env p j g) 0 := by
  generalize htouched : g.setUnacked p j { (g.ports p).unacked j with sentAt := now } = touched
  have hports : touched.ports = Function.update g.ports p
      { g.ports p with
        unacked := Function.update (g.ports p).unacked j
          { (g.ports p).unacked j with sentAt := now } } := by
    subst htouched
    simp [Globals.setUnacked]
  have hdata : ((touched.ports p).unacked j).data = ((g.ports p).unacked j).data := by
    simp [hports]
  have htouch : Accounts x g 0 touched 0 := by
    rw [← htouched]
    exact accounts_setUnacked_data rfl rfl
  have hplain := consumesSequence_retransmitParams (g.ports p) ((g.ports p).unacked j)
  -- giving the entry up puts what it holds into the hand of the call
  have hgiveUp : ∀ g₁ : Globals, g₁.ports = touched.ports →
      Accounts x g₁ 0 (giveSlot (g₁.setUnacked p j
        { (g₁.ports p).unacked j with data := none, inUse := false }) p)
        (holds x ((g.ports p).unacked j).data) := by
    intro g₁ hg₁
    have hclear : Accounts x g₁ 0 _ _ := accounts_clear (i := p) (j := j)
      { (g₁.ports p).unacked j with data := none, inUse := false } rfl
    rw [hg₁, hdata] at hclear
    rw [hg₁]
    exact hclear.trans (accounts_giveSlot p)
  apply htouch.trans
  unfold retransmit
  dsimp only
  rw [htouched]
  have hsame := ports_tcpSendInternal (g := touched) env hplain
  cases hmalloc : env.malloc with
  | none =>
      have hsend : tcpSendInternal touched
          (retransmitParams (g.ports p) ((g.ports p).unacked j)) env =
          ((touched.free ((g.ports p).unacked j).data).warn .sendNoMemory, .noMem) := by
        unfold tcpSendInternal
        rw [hmalloc]
        rfl
      rw [hsend] at hsame ⊢
      rw [if_neg (show EspErr.noMem ≠ .ok by decide)]
      -- the payload has been freed already
      have hfreed : Accounts x touched (holds x ((g.ports p).unacked j).data) _ 0 :=
        (accounts_free ((g.ports p).unacked j).data).trans (accounts_warn .sendNoMemory)
      have hgone := hfreed.trans (hgiveUp _ hsame)
      exact Accounts.unframe (n := holds x ((g.ports p).unacked j).data) (by simpa using hgone)
  | some heap =>
      obtain ⟨i, hfind⟩ : ∃ i, findParamsPort touched
          (retransmitParams (g.ports p) ((g.ports p).unacked j)) = some i := by
        rw [← Option.ne_none_iff_exists']
        intro hnone
        -- the port itself has the key
        have hkey := findParamsPort_eq_none_iff.mp hnone p
        simp [hports, TcpPort.key, TcpTransmitParams.key, retransmitParams] at hkey
      have hsend := tcpSendInternal_of_plain hmalloc hfind hplain
      have hsent : Accounts x touched 0 (tcpSendInternal touched
          (retransmitParams (g.ports p) ((g.ports p).unacked j)) env).1 0 := by
        rw [hsend]
        have halloc : Accounts x touched 0 _ _ := accounts_allocate heap
        rw [Nat.zero_add] at halloc
        exact halloc.trans (accounts_sendDatagram i _ _ _ heap heap _)
      split
      case isTrue => exact hsent
      case isFalse hfailed =>
          have hnone : ((g.ports p).unacked j).data = none := by
            apply hkeeps.resolve_right
            rintro (hnone | haccepts)
            · simp [hmalloc] at hnone
            · rw [hsend, haccepts] at hfailed
              exact hfailed rfl
          have hgone := hsent.trans (hgiveUp _ hsame)
          rwa [hnone, holds_none] at hgone

end Transmissions

end NetStack.Tcp
