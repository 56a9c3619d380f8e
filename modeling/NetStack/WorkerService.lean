import NetStack.Arp.Proofs.Service
import NetStack.Tcp.Proofs.Service
import NetStack.Udp.Proofs.Service
import NetStack.WorkerTasks

/-!
# The worker tasks and their backlogs

`tcp_task`, `arp_task` and `udp_task` take up whatever waits in their queues in bounded time and in
order, whatever the other tasks put in meanwhile, as long as no handle has been dropped. Only the set of
`udp_task` ever drops one.
-/

namespace NetStack
open NetStack.Lib

/-- From every reachable state of TCP and ARP the worker takes up all that waits in its queues within as
    many iterations as there are handles in its set. UDP does after a run exactly if every step of it that
    has queued an item has found room in the set. -/
theorem workers_serve_all (selfNet : NetContext) :
    (∀ s, Reachable Tcp.step (Tcp.boot selfNet) s →
        ServesAll Tcp.step Tcp.Action.isTcpTask (fun s => Tcp.stock s.g) s) ∧
      (∀ s, Reachable Arp.step (Arp.boot selfNet) s →
        ServesAll Arp.step Arp.Action.isArpTask (fun s => Arp.stock s.arp) s) ∧
      ∀ as s, run Udp.step (Udp.boot selfNet) as = some s →
        (ServesAll Udp.step Udp.Action.isUdpTask (fun s => Udp.stock s.g) s ↔
          Guarded Udp.step Udp.HandleKept (Udp.boot selfNet) as) := by
  refine ⟨fun s hreach => ?_, fun s hreach => ?_, fun as s hrun => ?_⟩
  · have hsync := (Tcp.inSync_of_reachable hreach).2
    rw [← Tcp.backlog_stock] at hsync
    exact servesAll_of_inSync Tcp.isService hsync
  · have hsync := (Arp.inSync_of_reachable hreach).2
    rw [← Arp.backlog_stock] at hsync
    exact servesAll_of_inSync Arp.isService hsync
  · have hcovered := Udp.covered_of_reachable ⟨as, hrun⟩
    rw [← Udp.backlog_stock] at hcovered
    rw [← Udp.inSync_iff_guarded hrun, ← Udp.backlog_stock]
    exact servesAll_iff_inSync (w := .udpTask ⟨none, false⟩) Udp.isService rfl
      (fun _ _ h => Udp.stock_udpTaskIteration h) Udp.isSome_udpTaskIteration hcovered

/-- The choices of the environment in an iteration of `tcp_task` that sends nothing. -/
def idleTaskEnv : Tcp.TaskEnv := ⟨⟨none, false⟩, fun _ _ => ⟨none, false⟩, true⟩

/-- A command, a request and a port are taken up by the next iteration, though another task puts in one
    more before it. With eight datagrams before it, a port is accepted and may never be taken up. -/
theorem workers_serve_all_of_room :
    (∃ s, run Tcp.step (Tcp.boot exampleNode) [.tcpListenPort 80 none none none] = some s ∧
        [.cmd (.createAndListen 80 none none none)] <+:
          served Tcp.step Tcp.Action.isTcpTask (fun s => Tcp.stock s.g) .portCmdQueue s
            [.tcpListenPort 81 none none none, .tcpTask idleTaskEnv]) ∧
      (∃ s, run Arp.step (Arp.boot exampleNode) [.arpGetMacAddr 1 ⟨10, 0, 0, 2⟩] = some s ∧
        [.request ⟨⟨10, 0, 0, 2⟩, 1⟩] <+:
          served Arp.step Arp.Action.isArpTask (fun s => Arp.stock s.arp) .requestQueue s
            [.arpGetMacAddr 2 ⟨10, 0, 0, 3⟩,
              .arpTask ⟨5, 5, fun _ => 0, some fun _ => 0, .ok⟩]) ∧
      (∃ s, run Udp.step (Udp.boot exampleNode) [.udpCreatePort ⟨53, some 1⟩] = some s ∧
        [.port ⟨53, some 1⟩] <+:
          served Udp.step Udp.Action.isUdpTask (fun s => Udp.stock s.g) .portQueue s
            [.udpCreatePort ⟨54, some 1⟩, .udpTask ⟨none, false⟩]) ∧
      ∃ s, Reachable Udp.step (Udp.boot exampleNode) s ∧ s.g.portQueue = [⟨53, some 1⟩] ∧
        ¬ServesAll Udp.step Udp.Action.isUdpTask (fun s => Udp.stock s.g) s := by
  obtain ⟨htcp, harp, hudp⟩ := workers_serve_all exampleNode
  have hlisten : run Tcp.step (Tcp.boot exampleNode) [.tcpListenPort 80 none none none] = some _ :=
    rfl
  have hrequest : run Arp.step (Arp.boot exampleNode) [.arpGetMacAddr 1 ⟨10, 0, 0, 2⟩] = some _ :=
    rfl
  have hcreate : run Udp.step (Udp.boot exampleNode) [.udpCreatePort ⟨53, some 1⟩] = some _ := rfl
  have hstranded : (run Udp.step (Udp.boot exampleNode)
      (List.replicate 8 (.udpSend ⟨4000, 53, ⟨10, 0, 0, 2⟩, none, 0⟩) ++
        [.udpCreatePort ⟨53, some 1⟩])).any (fun s => s.g.portQueue == [⟨53, some 1⟩]) = true := by
    decide +kernel
  obtain ⟨s, hs, hport⟩ := run_any hstranded
  refine ⟨⟨_, hlisten, htcp _ ⟨_, hlisten⟩ .portCmdQueue _ _ rfl le_rfl⟩,
    ⟨_, hrequest, harp _ ⟨_, hrequest⟩ .requestQueue _ _ rfl le_rfl⟩,
    ⟨_, hcreate, (hudp _ _ hcreate).mpr (by decide) .portQueue _ _ rfl le_rfl⟩,
    s, ⟨_, hs⟩, beq_iff_eq.mp hport, ?_⟩
  rw [hudp _ _ hs]
  decide +kernel

end NetStack
