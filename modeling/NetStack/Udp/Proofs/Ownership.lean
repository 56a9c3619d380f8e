import NetStack.Lib.Machine
import NetStack.Udp.Ownership

/-!
# What becomes of a payload

A block that is passed to `udp_send` is freed in one place only, after the copy into a datagram.
So every block whose request is finished has been freed exactly if each of them got that far: if
`send_queue` had room, the datagram could be allocated, and there was something to copy. The
datagrams are freed or handed over once, whatever happens.
-/

namespace NetStack
open NetStack.Lib

/-- The account of all blocks below `next`: those in `queue` have been passed and not been freed, and
    of the allocated ones each has been freed or handed over once. -/
structure Ledger (next : Nat) (queue : List Nat) (heap : List HeapEvent) : Prop where
  below : ∀ e ∈ heap, e.addr < next
  once : queue.Nodup
  queued : ∀ x ∈ queue, .pass x ∈ heap ∧ heap.count (.free x) = 0
  apart : ∀ x, .pass x ∈ heap → .malloc x ∉ heap
  datagram : ∀ x, .malloc x ∈ heap → heap.count (.free x) + heap.count (.handOver x) = 1

/-- Each block that has been passed and is not in `queue` has been freed once. -/
def Released (queue : List Nat) (heap : List HeapEvent) : Prop :=
  ∀ x, .pass x ∈ heap → x ∉ queue → heap.count (.free x) = 1

section Ledgers
variable {next x : Nat} {queue : List Nat} {heap heap' : List HeapEvent} {e : HeapEvent}

/-- The order of the events does not matter. -/
theorem Ledger.perm (hperm : heap.Perm heap') (h : Ledger next queue heap) :
    Ledger next queue heap' := by
  constructor
  case below => exact fun e he => h.below e (hperm.mem_iff.mpr he)
  case once => exact h.once
  case queued =>
    intro x hx
    rw [← hperm.mem_iff, ← hperm.count_eq]
    exact h.queued x hx
  case apart =>
    intro x
    rw [← hperm.mem_iff, ← hperm.mem_iff]
    exact h.apart x
  case datagram =>
    intro x
    rw [← hperm.mem_iff, ← hperm.count_eq, ← hperm.count_eq]
    exact h.datagram x

theorem released_perm (hperm : heap.Perm heap') : Released queue heap ↔ Released queue heap' := by
  unfold Released
  simp only [hperm.mem_iff, hperm.count_eq]

/-- Nothing has happened to a block that does not exist yet. -/
theorem Ledger.not_mem (h : Ledger next queue heap) (e : HeapEvent) (he : e.addr = next) :
    e ∉ heap := fun hmem => Nat.ne_of_lt (h.below e hmem) he

theorem Ledger.mono (h : Ledger next queue heap) : Ledger (next + 1) queue heap :=
  { h with below := fun e he => Nat.lt_succ_of_lt (h.below e he) }

/-- A block is passed, and its request is refused. -/
theorem Ledger.refuse (h : Ledger next queue heap) :
    Ledger (next + 1) queue (heap ++ [.pass next]) := by
  have hnew : .malloc next ∉ heap := h.not_mem (.malloc next) rfl
  constructor
  case below =>
    intro e he
    rcases List.mem_append.mp he with he | he
    · exact Nat.lt_succ_of_lt (h.below e he)
    · rw [List.mem_singleton.mp he]
      exact Nat.lt_succ_self next
  case once => exact h.once
  case queued =>
    intro x hx
    obtain ⟨hpass, hfree⟩ := h.queued x hx
    exact ⟨List.mem_append_left _ hpass, by simpa using hfree⟩
  case apart =>
    intro x hx
    simp only [List.mem_append, List.mem_singleton, HeapEvent.pass.injEq, reduceCtorEq,
      or_false] at hx ⊢
    rcases hx with hx | rfl
    · exact h.apart x hx
    · exact hnew
  case datagram =>
    intro x hx
    simpa using h.datagram x (by simpa using hx)

/-- A block is passed, and its request is queued. -/
theorem Ledger.pass (h : Ledger next queue heap) :
    Ledger (next + 1) (queue ++ [next]) (heap ++ [.pass next]) := by
  have hpassed : next ∉ queue := fun hnext => h.not_mem (.pass next) rfl (h.queued next hnext).1
  have hfree : heap.count (.free next) = 0 := List.count_eq_zero.mpr (h.not_mem (.free next) rfl)
  refine { h.refuse with once := ?_, queued := ?_ }
  · exact List.nodup_append_comm.mp (List.nodup_cons.mpr ⟨hpassed, h.once⟩)
  · intro x hx
    rcases List.mem_append.mp hx with hx | hx
    · exact h.refuse.queued x hx
    · obtain rfl := List.mem_singleton.mp hx
      exact ⟨List.mem_append_right _ List.mem_cons_self, by simpa using hfree⟩

/-- The request of a block is taken out of the queue and the block is forgotten. -/
theorem Ledger.forget (h : Ledger next (x :: queue) heap) : Ledger next queue heap :=
  { h with
    once := (List.nodup_cons.mp h.once).2
    queued := fun y hy => h.queued y (List.mem_cons_of_mem x hy) }

/-- The request of a block is taken out of the queue and the block is freed. -/
theorem Ledger.free (h : Ledger next (x :: queue) heap) :
    Ledger next queue (heap ++ [.free x]) := by
  obtain ⟨hout, honce⟩ := List.nodup_cons.mp h.once
  have hpass := (h.queued x List.mem_cons_self).1
  constructor
  case below =>
    intro e he
    rcases List.mem_append.mp he with he | he
    · exact h.below e he
    · rw [List.mem_singleton.mp he]
      exact h.below (.pass x) hpass
  case once => exact honce
  case queued =>
    intro y hy
    have hne : x ≠ y := fun hxy => hout (hxy ▸ hy)
    obtain ⟨hy, hfree⟩ := h.queued y (List.mem_cons_of_mem x hy)
    refine ⟨List.mem_append_left _ hy, ?_⟩
    simpa [List.count_cons, hne] using hfree
  case apart =>
    intro y hy
    have hy : .pass y ∈ heap := by simpa using hy
    simpa using h.apart y hy
  case datagram =>
    intro y hy
    have hy : .malloc y ∈ heap := by simpa using hy
    have hne : x ≠ y := fun hxy => h.apart y (hxy ▸ hpass) hy
    simpa [List.count_cons, hne] using h.datagram y hy

/-- A datagram is allocated, and freed or handed over. -/
theorem Ledger.build (h : Ledger next queue heap) (he : e = .handOver next ∨ e = .free next) :
    Ledger (next + 1) queue (heap ++ [.malloc next, e]) := by
  have haddr : e.addr = next := by rcases he with rfl | rfl <;> rfl
  -- an event at another block is none of the two
  have hother : ∀ f : HeapEvent, f.addr ≠ next →
      (f ∈ heap ++ [.malloc next, e] ↔ f ∈ heap) ∧
        (heap ++ [.malloc next, e]).count f = heap.count f := by
    intro f hf
    have hmalloc : .malloc next ≠ f := fun h => hf (h ▸ rfl)
    have hne : e ≠ f := fun h => hf (h ▸ haddr)
    exact ⟨by simp [hmalloc.symm, hne.symm], by simp [hmalloc, hne]⟩
  constructor
  case below =>
    intro f hf
    rcases List.mem_append.mp hf with hf | hf
    · exact Nat.lt_succ_of_lt (h.below f hf)
    · simp only [List.mem_cons, List.not_mem_nil, or_false] at hf
      rcases hf with rfl | rfl
      · exact Nat.lt_succ_self next
      · exact haddr ▸ Nat.lt_succ_self _
  case once => exact h.once
  case queued =>
    intro y hy
    obtain ⟨hpass, hfree⟩ := h.queued y hy
    have hne : y ≠ next := Nat.ne_of_lt (h.below _ hpass)
    exact ⟨List.mem_append_left _ hpass, (hother (.free y) hne).2.trans hfree⟩
  case apart =>
    intro y hy
    have hpass : .pass y ∈ heap := by
      rcases he with rfl | rfl <;> simpa using hy
    have hne : y ≠ next := Nat.ne_of_lt (h.below _ hpass)
    rw [(hother (.malloc y) hne).1]
    exact h.apart y hpass
  case datagram =>
    intro y hy
    by_cases hne : y = next
    · subst hne
      have hfree := List.count_eq_zero.mpr (h.not_mem (.free y) rfl)
      have hhand := List.count_eq_zero.mpr (h.not_mem (.handOver y) rfl)
      rcases he with rfl | rfl <;> simp [hfree, hhand]
    · rw [(hother (.free y) hne).2, (hother (.handOver y) hne).2]
      exact h.datagram y ((hother (.malloc y) hne).1.mp hy)

/-! ### What is released -/

theorem not_released_refuse (h : Ledger next queue heap) :
    ¬ Released queue (heap ++ [.pass next]) := by
  intro hreleased
  have hout : next ∉ queue := fun hnext => h.not_mem (.pass next) rfl (h.queued next hnext).1
  have hfree : heap.count (.free next) = 0 := List.count_eq_zero.mpr (h.not_mem (.free next) rfl)
  have honce := hreleased next (List.mem_append_right _ List.mem_cons_self) hout
  simp [hfree] at honce

theorem released_pass_iff (h : Ledger next queue heap) :
    Released (queue ++ [next]) (heap ++ [.pass next]) ↔ Released queue heap := by
  constructor
  · intro hreleased x hx hout
    have hne : x ≠ next := Nat.ne_of_lt (h.below _ hx)
    simpa using hreleased x (List.mem_append_left _ hx) (by simp [hout, hne])
  · intro hreleased x hx hout
    simp only [List.mem_append, List.mem_singleton, not_or] at hout
    have hx : .pass x ∈ heap := by
      simpa [hout.2] using hx
    simpa using hreleased x hx hout.1

theorem not_released_forget (h : Ledger next (x :: queue) heap) : ¬ Released queue heap := by
  intro hreleased
  obtain ⟨hpass, hfree⟩ := h.queued x List.mem_cons_self
  have honce := hreleased x hpass (List.nodup_cons.mp h.once).1
  omega

theorem released_free_iff (h : Ledger next (x :: queue) heap) :
    Released queue (heap ++ [.free x]) ↔ Released (x :: queue) heap := by
  obtain ⟨hpass, hfree⟩ := h.queued x List.mem_cons_self
  constructor
  · intro hreleased y hy hout
    rw [List.mem_cons, not_or] at hout
    have honce := hreleased y (List.mem_append_left _ hy) hout.2
    simpa [List.count_cons, Ne.symm hout.1] using honce
  · intro hreleased y hy hout
    have hy : .pass y ∈ heap := by simpa using hy
    by_cases hxy : x = y
    · subst hxy
      simp [hfree]
    · have honce := hreleased y hy (by simp [hout, Ne.symm hxy])
      simpa [List.count_cons, hxy] using honce

theorem released_build_iff (h : Ledger next queue heap)
    (he : e = .handOver next ∨ e = .free next) :
    Released queue (heap ++ [.malloc next, e]) ↔ Released queue heap := by
  have hpassed : ∀ x, .pass x ∈ heap ++ [.malloc next, e] ↔ .pass x ∈ heap := by
    intro x
    rcases he with rfl | rfl <;> simp
  apply forall_congr'
  intro x
  rw [hpassed x]
  apply imp_congr_right
  intro hx
  have hne : next ≠ x := (Nat.ne_of_lt (h.below _ hx)).symm
  rcases he with rfl | rfl <;> simp [hne]

end Ledgers

end NetStack

namespace NetStack.Udp
open NetStack.Lib

/-- The blocks of the requests in `send_queue`. -/
def queuedBlocks (g : Globals) : List Nat :=
  g.sendQueue.filterMap fun params => params.data.map (·.addr)

namespace HeapSystem

/-- The blocks of all finished requests have been freed once, and those of no other request; every
    datagram has been freed or handed over once. -/
structure Honoured (s : HeapSystem) : Prop where
  finished : ∀ x, .pass x ∈ s.heap → x ∉ queuedBlocks s.udp.g → s.heap.count (.free x) = 1
  pending : ∀ x ∈ queuedBlocks s.udp.g, s.heap.count (.free x) = 0
  datagram : ∀ x, .malloc x ∈ s.heap → s.heap.count (.free x) + s.heap.count (.handOver x) = 1

/-- A block that is passed finds room in `send_queue`; the datagram for a block can be allocated, and
    there is something to copy into it. -/
def Releases (s : HeapSystem) : HeapAction → Prop
  | .udpSend _ _ _ data _ => data.isSome → s.udp.g.sendQueue.length < sendQueueLength
  | .udpCreatePort _ => True
  | .udpTask malloc _ =>
      ∀ params ∈ dequeued s.udp.g, params.data.isSome → params.dataLen > 0 ∧ malloc.isSome

instance (s : HeapSystem) (a : HeapAction) : Decidable (s.Releases a) :=
  match a with
  | .udpSend _ _ _ data _ =>
      inferInstanceAs (Decidable (data.isSome → s.udp.g.sendQueue.length < sendQueueLength))
  | .udpCreatePort _ => inferInstanceAs (Decidable True)
  | .udpTask malloc _ =>
      inferInstanceAs (Decidable (∀ params ∈ dequeued s.udp.g,
        params.data.isSome → params.dataLen > 0 ∧ malloc.isSome))

variable {s s' : HeapSystem}

/-- The account of the component. -/
def Tracked (s : HeapSystem) : Prop := Ledger s.nextAddr (queuedBlocks s.udp.g) s.heap

/-- The blocks of the finished requests. -/
def AllReleased (s : HeapSystem) : Prop := Released (queuedBlocks s.udp.g) s.heap

/-! ### The steps -/

theorem queuedBlocks_udpSend (g : Globals) (params : UdpTransmitParams) :
    queuedBlocks (udpSend g params).1 =
      queuedBlocks g ++
        if g.sendQueue.length < sendQueueLength then (params.data.map (·.addr)).toList else [] := by
  unfold udpSend queueSend
  by_cases hroom : g.sendQueue.length < sendQueueLength
  · rw [if_pos hroom, if_pos hroom]
    cases hdata : params.data <;> simp [queuedBlocks, hdata]
  · rw [if_neg hroom, if_neg hroom, List.append_nil]

/-- What an iteration of `udp_task` leaves in `send_queue`. -/
theorem sendQueue_udpTaskIteration {t t' : System} {env : SendEnv}
    (h : udpTaskIteration t env = some t') :
    t.g.sendQueue = (dequeued t.g).toList ++ t'.g.sendQueue := by
  unfold udpTaskIteration at h
  split at h
  case h_1 => cases h
  case h_2 handle set hset =>
    obtain rfl := Option.some.inj h
    unfold dequeued handleSelected
    rw [hset]
    cases handle with
    | portQueue =>
      dsimp only
      cases t.g.portQueue with
      | nil => rfl
      | cons port queue =>
        dsimp only
        unfold allocatePort
        split <;> rfl
    | sendQueue =>
      dsimp only
      cases hqueue : t.g.sendQueue with
      | nil => simp
      | cons params queue => rfl

/-- The events of a request whose datagram could be allocated. -/
theorem heap_udpSendInternalEffects (selfNet : NetContext) (params : UdpTransmitParams)
    (block : Block) (accepts : Bool) :
    (udpSendInternalEffects selfNet params ⟨some block, accepts⟩).heap =
      .malloc block.addr ::
        ((if params.dataLen > 0 then onBlock .free params.data else []) ++
          [if accepts then .handOver block.addr else .free block.addr]) := by
  unfold udpSendInternalEffects sendIpv4Packet
  cases params.data with
  | none => cases accepts <;> simp [onBlock]
  | some data => cases accepts <;> rfl

/-- The account after a request has been served, and when that leaves its payload released. -/
theorem ledger_udpSendInternal {queue : List Nat} (selfNet : NetContext)
    {params : UdpTransmitParams} {malloc : Option Memory} (accepts : Bool)
    (h : Ledger s.nextAddr ((params.data.map (·.addr)).toList ++ queue) s.heap) :
    Ledger (s.nextAddr + 1) queue
        (s.heap ++ (udpSendInternalEffects selfNet params ⟨s.newBlock malloc, accepts⟩).heap) ∧
      (Released queue
          (s.heap ++ (udpSendInternalEffects selfNet params ⟨s.newBlock malloc, accepts⟩).heap) ↔
        Released ((params.data.map (·.addr)).toList ++ queue) s.heap ∧
          (params.data.isSome → params.dataLen > 0 ∧ malloc.isSome)) := by
  cases malloc with
  | none =>
    have hnothing : (udpSendInternalEffects selfNet params ⟨s.newBlock none, accepts⟩).heap = [] :=
      rfl
    rw [hnothing, List.append_nil]
    cases hdata : params.data with
    | none =>
      rw [hdata] at h
      exact ⟨h.mono, by simp⟩
    | some block =>
      have hcons : ((some block).map (·.addr)).toList ++ queue = block.addr :: queue := rfl
      rw [hdata, hcons] at h
      have hlost := not_released_forget h
      exact ⟨h.forget.mono, by simpa using hlost⟩
  | some bytes =>
    have hevents := heap_udpSendInternalEffects selfNet params ⟨s.nextAddr, bytes⟩ accepts
    rw [newBlock, Option.map_some, hevents]
    have hlast : (if accepts then HeapEvent.handOver s.nextAddr else .free s.nextAddr) =
          .handOver s.nextAddr ∨
        (if accepts then HeapEvent.handOver s.nextAddr else .free s.nextAddr) =
          .free s.nextAddr := by
      cases accepts
      · exact .inr rfl
      · exact .inl rfl
    dsimp only
    generalize (if accepts then HeapEvent.handOver s.nextAddr else .free s.nextAddr) = last
      at hlast ⊢
    cases hdata : params.data with
    | none =>
      rw [hdata] at h
      simp only [onBlock, ite_self, List.nil_append]
      exact ⟨h.build hlast, by simpa using released_build_iff h hlast⟩
    | some block =>
      have hcons : ((some block).map (·.addr)).toList ++ queue = block.addr :: queue := rfl
      rw [hdata, hcons] at h
      rw [hcons]
      by_cases hlen : params.dataLen > 0
      · -- the free stands between the two events of the datagram
        have hperm : (s.heap ++ [HeapEvent.free block.addr] ++ [.malloc s.nextAddr, last]).Perm
            (s.heap ++ HeapEvent.malloc s.nextAddr :: ([.free block.addr] ++ [last])) := by
          rw [List.append_assoc]
          exact List.Perm.append_left s.heap (List.Perm.swap _ _ _)
        simp only [if_pos hlen, onBlock]
        refine ⟨(h.free.build hlast).perm hperm, ?_⟩
        rw [← released_perm hperm, released_build_iff h.free hlast, released_free_iff h]
        exact (and_iff_left fun _ => ⟨hlen, rfl⟩).symm
      · have hlost := not_released_forget h
        simp only [if_neg hlen, List.nil_append]
        refine ⟨h.forget.build hlast, ?_⟩
        rw [released_build_iff h.forget hlast]
        exact ⟨fun hall => absurd hall hlost, fun hall => absurd (hall.2 rfl).1 hlen⟩

/-- A step keeps the account, and it leaves everything released exactly if it meets the condition. -/
theorem tracked_step {a : HeapAction} (h : s.Tracked) (hs' : s.step a = some s') :
    s'.Tracked ∧ (s'.AllReleased ↔ s.AllReleased ∧ s.Releases a) := by
  cases a with
  | udpSend srcPort dstPort dstIpv4Addr data dataLen =>
    obtain rfl := Option.some.inj hs'
    unfold Tracked AllReleased at *
    dsimp only
    rw [queuedBlocks_udpSend]
    cases data with
    | none =>
      simp only [newBlock, onBlock, Option.map_none, Option.toList_none, ite_self, List.append_nil]
      exact ⟨h.mono, by simp [Releases]⟩
    | some bytes =>
      simp only [newBlock, onBlock, Option.map_some, Option.toList_some]
      by_cases hroom : s.udp.g.sendQueue.length < sendQueueLength
      · rw [if_pos hroom]
        exact ⟨h.pass, by simpa [Releases, hroom] using released_pass_iff h⟩
      · rw [if_neg hroom, List.append_nil]
        exact ⟨h.refuse, by simpa [Releases, hroom] using not_released_refuse h⟩
  | udpCreatePort port =>
    obtain rfl := Option.some.inj hs'
    have hqueue : queuedBlocks (udpCreatePort s.udp.g port).1 = queuedBlocks s.udp.g := by
      unfold udpCreatePort queueSend
      split
      · rfl
      · split <;> rfl
    unfold Tracked AllReleased at *
    rw [hqueue]
    exact ⟨h, by simp [Releases]⟩
  | udpTask malloc ipv4Accepts =>
    obtain ⟨t, ht, rfl⟩ := Option.map_eq_some_iff.mp hs'
    have hqueue : queuedBlocks s.udp.g =
        (dequeued s.udp.g).toList.filterMap (fun params => params.data.map (·.addr)) ++
          queuedBlocks t.g := by
      unfold queuedBlocks
      rw [sendQueue_udpTaskIteration ht, List.filterMap_append]
    unfold Tracked AllReleased Releases taskHeap at *
    cases hparams : dequeued s.udp.g with
    | none =>
      rw [hparams, Option.toList_none, List.filterMap_nil, List.nil_append] at hqueue
      rw [hqueue] at h ⊢
      simp only [List.append_nil]
      exact ⟨h.mono, by simp⟩
    | some params =>
      have hblock : (some params).toList.filterMap (fun params => params.data.map (·.addr)) =
          (params.data.map (·.addr)).toList := by
        cases hdata : params.data <;> simp [hdata]
      rw [hparams, hblock] at hqueue
      rw [hqueue] at h ⊢
      simpa using ledger_udpSendInternal s.udp.g.selfNet ipv4Accepts h

/-- After a run the blocks of all finished requests have been freed once, and every datagram has been
    freed or handed over once, exactly if every step of the run has met the condition. -/
theorem udp_send_honoured_iff {net : NetContext} {as : List HeapAction}
    (hrun : run step (boot net) as = some s) :
    s.Honoured ↔ Guarded step Releases (boot net) as := by
  have hboot : (boot net).Tracked := by
    constructor <;> simp [boot, Udp.boot, queuedBlocks]
  have htracked : s.Tracked := run_invariant (C := fun _ _ => True) (P := Tracked)
    (fun _ _ _ h _ hs' => (tracked_step h hs').1) hboot (guarded_true _ as) hrun
  have hreleased : s.AllReleased ↔ Guarded step Releases (boot net) as :=
    run_iff_guarded_of_invariant (I := Tracked) (P := AllReleased)
      (fun _ _ _ h hs' => (tracked_step h hs').1) (fun _ _ _ h hs' => (tracked_step h hs').2)
      hboot (fun x hx => by simp [boot] at hx) hrun
  rw [← hreleased]
  constructor
  · exact fun h => h.finished
  · exact fun h => ⟨h, fun x hx => (htracked.queued x hx).2, htracked.datagram⟩

/-- A node and a call of its application, with a block of `dataLen` bytes for a peer. -/
def sender : NetContext := ⟨⟨2, 0, 0, 0, 0, 1⟩, ⟨10, 0, 0, 1⟩⟩
def sendsBlock (dataLen : BitVec 16) : HeapAction :=
  .udpSend 4000 53 ⟨10, 0, 0, 2⟩ (some fun _ => 7) dataLen

/-- A payload that is sent, and one whose datagram IPv4 refuses. -/
theorem sent_and_refused_honoured :
    ∃ s, run step (boot sender) [sendsBlock 3, sendsBlock 5, .udpTask (some fun _ => 0) true,
        .udpTask (some fun _ => 0) false] = some s ∧
      s.heap = [.pass 0, .pass 1, .malloc 2, .free 0, .handOver 2, .malloc 3, .free 1, .free 3] ∧
      s.Honoured := by
  obtain ⟨s, hs, hheap⟩ := run_any
    (show (run step (boot sender) [sendsBlock 3, sendsBlock 5, .udpTask (some fun _ => 0) true,
        .udpTask (some fun _ => 0) false]).any (fun s => s.heap == [.pass 0, .pass 1, .malloc 2,
          .free 0, .handOver 2, .malloc 3, .free 1, .free 3]) = true by decide +kernel)
  exact ⟨s, hs, beq_iff_eq.mp hheap, (udp_send_honoured_iff hs).mpr (by decide)⟩

/-- After the run there is a block whose request is finished and that has never been freed. -/
def LeavesBlock (as : List HeapAction) : Prop :=
  ∃ s, run step (boot sender) as = some s ∧
    ∃ x, .pass x ∈ s.heap ∧ x ∉ queuedBlocks s.udp.g ∧ s.heap.count (.free x) = 0

theorem leavesBlock_of_any {as : List HeapAction} (x : Nat)
    (h : (run step (boot sender) as).any (fun s => s.heap.contains (.pass x) &&
      !(queuedBlocks s.udp.g).contains x && s.heap.count (.free x) == 0) = true) :
    LeavesBlock as := by
  obtain ⟨s, hs, hend⟩ := run_any h
  exact ⟨s, hs, x, by simpa [and_assoc] using hend⟩

/-- The ninth payload is lost because `send_queue` is full, a payload because its datagram could not be
    allocated, and a payload because its length is zero. -/
theorem payloads_left :
    LeavesBlock (List.replicate 9 (sendsBlock 3)) ∧
      LeavesBlock [sendsBlock 3, .udpTask none true] ∧
      LeavesBlock [sendsBlock 0, .udpTask (some fun _ => 0) true] := by
  refine ⟨leavesBlock_of_any 8 ?_, leavesBlock_of_any 0 ?_, leavesBlock_of_any 0 ?_⟩
  · decide +kernel
  · decide +kernel
  · decide +kernel

end HeapSystem

end NetStack.Udp
