import NetStack.Arp.Proofs.QueueSet
import NetStack.Tcp.Proofs.QueueSet
import NetStack.Udp.Proofs.QueueSet

/-!
# The worker tasks and their queue sets

`tcp_task`, `arp_task` and `udp_task` each wait on a queue set. The sets of the first two have
room for all items that their members can hold, and the set of `udp_task` has not: an item whose
handle was dropped stays behind in its queue when the set has run empty.
-/

namespace NetStack
open NetStack.Lib

/-- In every reachable state of TCP and ARP the handles in the queue set are those of the items in
    its members. After a run of UDP they are exactly if every step of it that has queued an item
    has found room in the set. -/
theorem queue_sets_in_sync_iff (selfNet : NetContext) :
    (∀ s, Reachable Tcp.step (Tcp.boot selfNet) s → (Tcp.backlog s.g).InSync) ∧
      (∀ s, Reachable Arp.step (Arp.boot selfNet) s → (Arp.backlog s.arp).InSync) ∧
      ∀ as s, run Udp.step (Udp.boot selfNet) as = some s →
        ((Udp.backlog s.g).InSync ↔ Guarded Udp.step Udp.HandleKept (Udp.boot selfNet) as) :=
  ⟨fun _ hreach => (Tcp.inSync_of_reachable hreach).2,
    fun _ hreach => (Arp.inSync_of_reachable hreach).2,
    fun _ _ hrun => Udp.inSync_iff_guarded hrun⟩

/-- A node for the runs below. -/
def exampleNode : NetContext := ⟨⟨2, 0, 0, 0, 0, 1⟩, ⟨10, 0, 0, 1⟩⟩

/-- An item in each of the three components, with room for its handle. -/
theorem queue_sets_in_sync_of_room :
    (∃ s, Reachable Tcp.step (Tcp.boot exampleNode) s ∧ s.g.portCmdQueue.length = 1 ∧
        (Tcp.backlog s.g).InSync) ∧
      (∃ s, Reachable Arp.step (Arp.boot exampleNode) s ∧ s.arp.arpRequestQueue.length = 1 ∧
        (Arp.backlog s.arp).InSync) ∧
      ∃ s, Reachable Udp.step (Udp.boot exampleNode) s ∧ s.g.portQueue.length = 1 ∧
        (Udp.backlog s.g).InSync := by
  obtain ⟨htcp, harp, hudp⟩ := queue_sets_in_sync_iff exampleNode
  have hlisten : Reachable Tcp.step (Tcp.boot exampleNode) _ :=
    ⟨[.tcpListenPort 80 none none none], rfl⟩
  have hrequest : Reachable Arp.step (Arp.boot exampleNode) _ :=
    ⟨[.arpGetMacAddr 1 ⟨10, 0, 0, 2⟩], rfl⟩
  have hcreate : run Udp.step (Udp.boot exampleNode) [.udpCreatePort ⟨53, some 1⟩] = some _ := rfl
  exact ⟨⟨_, hlisten, rfl, htcp _ hlisten⟩, ⟨_, hrequest, rfl, harp _ hrequest⟩,
    ⟨_, ⟨_, hcreate⟩, rfl, (hudp _ _ hcreate).mpr (by decide)⟩⟩

/-- With eight datagrams before it, a port is accepted and its handle is dropped: when `udp_task`
    has sent the datagrams the set is empty, and the port is never created. -/
theorem accepted_port_stranded :
    ∃ s, Reachable Udp.step (Udp.boot exampleNode) s ∧ s.g.queueSet = [] ∧
      s.g.portQueue = [⟨53, some 1⟩] ∧ ¬(Udp.backlog s.g).InSync := by
  have hrun : (run Udp.step (Udp.boot exampleNode)
      (List.replicate 8 (.udpSend ⟨4000, 53, ⟨10, 0, 0, 2⟩, none, 0⟩) ++
        [.udpCreatePort ⟨53, some 1⟩] ++ List.replicate 8 (.udpTask ⟨none, false⟩))).any
      (fun s => s.g.queueSet == [] && s.g.portQueue == [⟨53, some 1⟩]) = true := by
    decide +kernel
  obtain ⟨s, hs, hrun⟩ := run_any hrun
  obtain ⟨hset, hport⟩ := Bool.and_eq_true_iff.mp hrun
  have hset : s.g.queueSet = [] := beq_iff_eq.mp hset
  have hport : s.g.portQueue = [⟨53, some 1⟩] := beq_iff_eq.mp hport
  refine ⟨s, ⟨_, hs⟩, hset, hport, ?_⟩
  intro hsync
  have hhandles := hsync .portQueue
  simp only [Udp.backlog, hset, hport] at hhandles
  cases hhandles

end NetStack
