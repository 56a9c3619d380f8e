import NetStack.Ipv4.Task
import NetStack.Lib.Ownership
import NetStack.Tcp.Proofs.Datagram
import NetStack.Tcp.Proofs.StepAccounts
import NetStack.Tcp.Proofs.Transitions

/-!
# Every block has one owner

The tokens of the stack are the payloads that are passed to `tcp_send` and the datagrams that
`tcp_send_internal` allocates. `held` lists what each place of the stack holds, `freed` what has
been freed. As long as no step forgets a block, every token has one owner until it is freed, once.
-/

namespace NetStack
open NetStack.Lib

namespace Stack

/-- The tokens that have come into being. -/
def created (s : Stack) : List Nat := s.payloads ++ Tcp.allocatedTokens s.tcp.g.log

/-- What the callers in progress, `send_queue`, the unacked entries and the IPv4 queue hold. -/
def held (s : Stack) : List Nat :=
  s.callers ++ Tcp.waitingTokens s.tcp.g ++ Tcp.queuedTokens s.tcp.g ++
    Tcp.unackedTokens s.tcp.g ++ Tcp.packetTokens s.transmitQueue

/-- The tokens that have been freed, once for each time. -/
def freed (s : Stack) : List Nat := Tcp.freedTokens s.tcp.g.log ++ s.ipv4Freed

/-- The step forgets no block. -/
def keepsOwners (s : Stack) : StackAction → Bool
  | .tcp a => Tcp.keepsOwners s.tcp a
  | .ipv4Task _ => true

/-- All tokens are accounted for. -/
structure Accounted (s : Stack) : Prop where
  idle : Tcp.IdleEmpty s.tcp.g
  balance : ∀ x, Tcp.owned x s.tcp.g + Tcp.spent x s.tcp.g + s.callers.count x =
    s.payloads.count x + Tcp.born x s.tcp.g
  handedOver : ∀ x, (Tcp.packetTokens (Tcp.handedOver s.tcp.g.log)).count x =
    (Tcp.packetTokens s.transmitQueue).count x + s.ipv4Freed.count x
  once : ∀ x, s.payloads.count x + Tcp.born x s.tcp.g ≤ if x < s.tcp.g.nextAddr then 1 else 0

theorem accounted_boot (net : NetContext) : Accounted (boot net) := by
  refine ⟨fun _ _ _ => rfl, ?_, fun x => rfl, ?_⟩
  · intro x
    simp [boot, Tcp.boot, Tcp.owned, Tcp.spent, Tcp.born, Tcp.queuedTokens, Tcp.waitingTokens,
      Tcp.entriesHold, Tcp.freedTokens, Tcp.handedOver, Tcp.packetTokens, Tcp.allocatedTokens]
  · intro x
    simp [boot, Tcp.boot, Tcp.born, Tcp.allocatedTokens]

theorem Accounted.step {s s' : Stack} {a : StackAction} (hs : s.Accounted)
    (hkeeps : s.keepsOwners a = true) (h : s.step a = some s') : s'.Accounted := by
  cases a with
  | tcp a =>
      simp only [Stack.step] at h
      split at h
      · cases h
      case h_2 t ht =>
          obtain rfl := Option.some.inj h
          have hstep := Tcp.step_accounts hs.idle hkeeps ht
          obtain ⟨l, hlog, -⟩ := Tcp.step_logGrows ht
          refine ⟨(hstep 0).idle, ?_, ?_, ?_⟩
          · intro x
            have hbefore := hs.balance x
            have hafter := (hstep x).balance
            simp only [List.count_append]
            omega
          · intro x
            have hbefore := hs.handedOver x
            simp only [Tcp.packetTokens, Tcp.handedOver, hlog, List.drop_left, List.flatMap_append,
              List.count_append] at hbefore ⊢
            omega
          · intro x
            have hbefore := hs.once x
            have hfresh := (hstep x).fresh
            have hnext := (hstep x).nextAddr
            simp only [List.count_append]
            split_ifs at hbefore hfresh ⊢ <;> omega
  | ipv4Task env =>
      simp only [Stack.step] at h
      split at h
      · cases h
      case h_2 params rest hqueue =>
          obtain rfl := Option.some.inj h
          refine ⟨hs.idle, hs.balance, fun x => ?_, hs.once⟩
          have hbefore := hs.handedOver x
          simp only [Tcp.packetTokens, hqueue, List.flatMap_cons, List.count_append,
            Ipv4.internalSendIpv4Packet_freed] at hbefore ⊢
          omega

/-- Tokens that are accounted for have one owner each. -/
theorem Accounted.oneOwner {s : Stack} (hs : s.Accounted) :
    OneOwner s.created s.held s.freed := by
  have hcreated : ∀ x, s.created.count x = s.payloads.count x + Tcp.born x s.tcp.g := fun x => by
    simp only [created, List.count_append, Tcp.born]
  refine OneOwner.of_count (fun x => ?_) fun x => ?_
  · have := hs.once x
    rw [hcreated]
    split_ifs at this <;> omega
  · have hbalance := hs.balance x
    have hhanded := hs.handedOver x
    rw [hcreated]
    simp only [held, freed, List.count_append, Tcp.count_unackedTokens, Tcp.owned,
      Tcp.spent] at hbalance ⊢
    omega

end Stack

/-- As long as every step forgets no block, every payload and every datagram that has not been freed
    has exactly one owner, none has been freed twice, and no owner holds a freed one. -/
theorem every_block_owned {net : NetContext} {as : List StackAction} {s : Stack}
    (hrun : run Stack.step (Stack.boot net) as = some s)
    (hg : Guarded Stack.step (fun s a => s.keepsOwners a = true) (Stack.boot net) as) :
    OneOwner s.created s.held s.freed := by
  have hs : s.Accounted := run_invariant (P := Stack.Accounted)
    (fun s a s' hs hc h => hs.step hc h) (Stack.accounted_boot net) hg hrun
  exact hs.oneOwner

/-- `ipv4_task` sends its oldest item. -/
def sendsPacket : StackAction :=
  .ipv4Task ⟨some fun _ => 0, .ok Tcp.peerNet.mac, ⟨some fun _ => 0, .ok⟩⟩

/-- Three bytes are sent over a connection and acknowledged, and `ipv4_task` sends a datagram. -/
def sentAndAcknowledged : List StackAction :=
  (Tcp.handshake Tcp.peerNet.ip).map .tcp ++
    [.tcp (.tcpSend false 80 5000 Tcp.peerNet.ip (some fun _ => 7) 3 0), .tcp Tcp.iterates,
      sendsPacket, .tcp (Tcp.arrives Tcp.peerNet.ip 5000 80 1 4 Tcp.ACK []), .tcp Tcp.iterates]

theorem acknowledged_block_owned :
    ∃ s, run Stack.step (Stack.boot Tcp.hostNet) sentAndAcknowledged = some s ∧
      s.created.length = 3 ∧ s.freed.length = 2 ∧ OneOwner s.created s.held s.freed := by
  obtain ⟨s, hs, hend⟩ := run_any
    (show (run Stack.step (Stack.boot Tcp.hostNet) sentAndAcknowledged).any (fun s =>
      s.created.length == 3 && s.freed.length == 2) = true by decide +kernel)
  simp only [Bool.and_eq_true, beq_iff_eq] at hend
  exact ⟨s, hs, hend.1, hend.2, every_block_owned hs (by decide +kernel)⟩

/-- The peer resets the connection before its SYN is answered. -/
def resetBeforeReply : List StackAction :=
  ([.tcpListenPort 80 (some 1) (some 2) (some 3), Tcp.iterates,
    Tcp.arrives Tcp.peerNet.ip 5000 80 0 0 Tcp.SYN [],
    Tcp.arrives Tcp.peerNet.ip 5000 80 1 0 0b100 [], Tcp.iterates, Tcp.iterates,
    Tcp.iterates] : List Tcp.Action).map .tcp

/-- Three bytes are sent, and the IPv4 queue is full when they are sent again. -/
def refusedRetransmission : List StackAction :=
  ((Tcp.handshake Tcp.peerNet.ip ++
    [.tcpSend false 80 5000 Tcp.peerNet.ip (some fun _ => 7) 3 0, Tcp.iterates] ++
    List.replicate 101 .tick ++
    [.tcpTask ⟨⟨some fun _ => 0, false⟩, fun _ _ => ⟨some fun _ => 0, false⟩, true⟩]) :
    List Tcp.Action).map .tcp

/-- A block of which nothing is sent. -/
def emptySend : List StackAction :=
  ((Tcp.handshake Tcp.peerNet.ip ++
    [.tcpSend false 80 5000 Tcp.peerNet.ip (some fun _ => 7) 0 0, Tcp.iterates]) :
    List Tcp.Action).map .tcp

/-- After the run there is a block that nobody owns and nobody has freed. -/
def LosesBlock (as : List StackAction) : Prop :=
  ∃ s, run Stack.step (Stack.boot Tcp.hostNet) as = some s ∧
    ∃ x ∈ s.created, x ∉ s.freed ∧ x ∉ s.held

/-- A block that nobody owns and nobody has freed. -/
def Stack.leaks (s : Stack) : Bool :=
  s.created.any fun x => !s.freed.contains x && !s.held.contains x

theorem losesBlock_of_leaks {as : List StackAction}
    (h : (run Stack.step (Stack.boot Tcp.hostNet) as).any Stack.leaks = true) :
    LosesBlock as := by
  obtain ⟨s, hs, hend⟩ := run_any h
  exact ⟨s, hs, by simpa [Stack.leaks] using hend⟩

/-- A datagram is lost when its port is gone, a payload when IPv4 refuses its retransmission, and a
    payload of length zero when it is transmitted. -/
theorem blocks_leaked :
    LosesBlock resetBeforeReply ∧ LosesBlock refusedRetransmission ∧ LosesBlock emptySend := by
  refine ⟨?_, ?_, ?_⟩ <;> apply losesBlock_of_leaks
  · decide +kernel
  · decide +kernel
  · decide +kernel

end NetStack
