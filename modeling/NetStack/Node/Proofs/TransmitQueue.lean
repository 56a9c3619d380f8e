import NetStack.Arp.Proofs.Calls
import NetStack.Node.Proofs.Packets

/-!
# Every packet is sent once, in order

`ipv4_transmit_queue` has three producers and one consumer, which is not done with a packet before it
has waited for the address. What the consumer is done with, what it waits with and what is queued is
everything that has ever been queued, in the order in which it was; and of each protocol that is what the
protocol has handed over.
-/

namespace NetStack.Node
open NetStack.Lib NetStack.Icmpv4 NetStack.WifiManager

/-- What is known of the addresses and of the packets in every state of a run. -/
structure Merged (net : NetContext) (s : Node) : Prop where
  tcp : Tcp.AllAddressed net s.tcp.g
  udp : s.udp.g.selfNet = net
  arp : s.arp.selfNet = net
  own : ∀ p ∈ s.accepted, OwnPacket net p
  tcpPackets : ofProtocol Tcp.tcpProtocolNumber s.accepted = Tcp.handedOver s.tcp.g.log
  udpPackets : ofProtocol Udp.udpProtocolNumber s.accepted = s.udp.transmitted

variable {net : NetContext} {s s' : Node} {a : NodeAction}

theorem merged_boot (net : NetContext) : Merged net (boot net) :=
  ⟨⟨rfl, by simp [boot, Tcp.boot, Tcp.transmissions]⟩, rfl, rfl, by simp [boot], rfl, rfl⟩

/-- Packets of one protocol enter the queue. -/
theorem Merged.enqueue {packets : List Ipv4TransmitParams} (hs : Merged net s)
    (htcp : Tcp.AllAddressed net s'.tcp.g) (hudp : s'.udp.g.selfNet = net)
    (harp : s'.arp.selfNet = s.arp.selfNet) (haccepted : s'.accepted = s.accepted ++ packets)
    (hown : ∀ p ∈ packets, OwnPacket net p)
    (htcpPackets : Tcp.handedOver s'.tcp.g.log =
      Tcp.handedOver s.tcp.g.log ++ ofProtocol Tcp.tcpProtocolNumber packets)
    (hudpPackets : s'.udp.transmitted =
      s.udp.transmitted ++ ofProtocol Udp.udpProtocolNumber packets) : Merged net s' where
  tcp := htcp
  udp := hudp
  arp := harp.trans hs.arp
  own := haccepted ▸ List.forall_mem_append.mpr ⟨hs.own, hown⟩
  tcpPackets := by rw [haccepted, ofProtocol_append, hs.tcpPackets, htcpPackets]
  udpPackets := by rw [haccepted, ofProtocol_append, hs.udpPackets, hudpPackets]

/-- Nothing enters the queue. -/
theorem Merged.of_same (hs : Merged net s) (htcp : s'.tcp = s.tcp) (hudp : s'.udp = s.udp)
    (harp : s'.arp.selfNet = s.arp.selfNet) (haccepted : s'.accepted = s.accepted) :
    Merged net s' :=
  hs.enqueue (htcp ▸ hs.tcp) (hudp ▸ hs.udp) harp
    (haccepted.trans (List.append_nil s.accepted).symm) (by simp) (by simp [htcp, ofProtocol])
    (by simp [hudp, ofProtocol])

theorem Merged.step (hs : Merged net s) (h : step s a = some s') : Merged net s' := by
  cases step_moves h with
  | counted c => exact hs.of_same rfl rfl rfl rfl
  | @tcp _ b t c _ ht =>
      have hadded := Tcp.step_handedOver ht
      have hown : ∀ p ∈ Tcp.handedOver (t.g.log.drop s.tcp.g.log.length),
          OwnPacket net p ∧ p.protocol = Tcp.tcpProtocolNumber := by
        intro p hp
        obtain ⟨u, hu, -, rfl⟩ := Tcp.mem_handedOver.mp
          (hadded ▸ List.mem_append_right (Tcp.handedOver s.tcp.g.log) hp)
        have haddressed := (hs.tcp.step ht).sent u hu
        exact ⟨⟨haddressed.src, haddressed.data⟩, haddressed.protocol⟩
      refine hs.enqueue (hs.tcp.step ht) hs.udp rfl rfl (fun p hp => (hown p hp).1) ?_ ?_
      · rw [ofProtocol_same fun p hp => (hown p hp).2]
        exact hadded
      · rw [ofProtocol_other (fun p hp => (hown p hp).2) (by decide), List.append_nil]
        rfl
  | @udp b u hu =>
      obtain ⟨hnet, -, packets, hpackets, hdatagrams⟩ := Udp.step_sends hu
      have hdrop : u.transmitted.drop s.udp.transmitted.length = packets := by
        rw [hpackets, List.drop_left]
      have hprotocol : ∀ p ∈ packets, p.protocol = Udp.udpProtocolNumber := fun p hp =>
        (hdatagrams p hp).choose_spec.2.protocol
      rw [hdrop]
      refine hs.enqueue hs.tcp (hnet.trans hs.udp) rfl rfl (fun p hp => ?_) ?_ ?_
      · obtain ⟨params, -, hfor⟩ := hdatagrams p hp
        exact hs.udp ▸ hfor.toOwnPacket
      · rw [ofProtocol_other hprotocol (by decide), List.append_nil]
        rfl
      · rw [ofProtocol_same hprotocol]
        exact hpackets
  | @icmp frame data buffer len dataLen bufferLen eb env c _ hcall =>
      have hreply : ∀ p ∈ (icmpv4Input s.arp.selfNet buffer bufferLen env.ping).toList,
          OwnPacket s.arp.selfNet p ∧ p.protocol = icmpProtocolNumber := by
        intro p hp
        obtain ⟨hown, hprotocol, -⟩ := reply_of_ipv4Input hcall (Option.mem_toList.mp hp)
        exact ⟨hown, hprotocol⟩
      refine hs.enqueue hs.tcp hs.udp rfl rfl (fun p hp => hs.arp ▸ (hreply p hp).1) ?_ ?_
      · rw [ofProtocol_other (fun p hp => (hreply p hp).2) (by decide), List.append_nil]
        rfl
      · rw [ofProtocol_other (fun p hp => (hreply p hp).2) (by decide), List.append_nil]
        rfl
  | arp c _ hr => exact hs.of_same rfl rfl (Arp.step_selfNet hr) rfl
  | ipv4Task _ _ hr => exact hs.of_same rfl rfl (Arp.step_selfNet hr) rfl

theorem merged_of_run {as : List NodeAction} (hrun : run step (boot net) as = some s) :
    Merged net s :=
  run_invariant (P := Merged net) (C := fun _ _ => True) (fun _ _ _ hs _ h => hs.step h)
    (merged_boot net) (guarded_true _ as) hrun

/-! ### One consumer -/

/-- `ipv4_task` waits with a packet, and nobody else does; what it is done with, what it waits with and
    what is queued is all that has been queued. -/
structure Consumed (s : Node) : Prop where
  single : (s.arp.callers.map (·.request.task)).Nodup
  packets : ∀ c ∈ s.arp.callers, c.packet.isSome = true ↔ c.request.task = ipv4TaskHandle
  order : s.accepted = s.finished ++ s.inHand ++ s.transmitQueue

theorem consumed_boot (net : NetContext) : Consumed (boot net) :=
  ⟨List.nodup_nil, fun _ hc => absurd hc List.not_mem_nil, rfl⟩

/-- Callers that are not `ipv4_task` wait with nothing. -/
theorem waitingPackets_eq_nil {callers : List Arp.ArpCaller}
    (hpackets : ∀ c ∈ callers, c.packet.isSome = true ↔ c.request.task = ipv4TaskHandle)
    (hother : ∀ c ∈ callers, c.request.task ≠ ipv4TaskHandle) : waitingPackets callers = [] := by
  rw [waitingPackets, List.filterMap_eq_nil_iff]
  intro c hc
  have hnone := mt (hpackets c hc).mp (hother c hc)
  simpa using hnone

theorem waitingPackets_append (callers callers' : List Arp.ArpCaller) :
    waitingPackets (callers ++ callers') = waitingPackets callers ++ waitingPackets callers' :=
  List.filterMap_append

/-- The packet of a caller that goes on is the only one. -/
theorem waitingPackets_eraseIdx {callers : List Arp.ArpCaller} {k : Nat} {c : Arp.ArpCaller}
    (hc : callers[k]? = some c) (hsingle : (callers.map (·.request.task)).Nodup)
    (hpackets : ∀ c ∈ callers, c.packet.isSome = true ↔ c.request.task = ipv4TaskHandle) :
    waitingPackets callers =
      (c.packet.map (·.1)).toList ++ waitingPackets (callers.eraseIdx k) := by
  obtain ⟨before, after, rfl, rfl⟩ : ∃ before after, callers = before ++ c :: after ∧
      k = before.length := by
    obtain ⟨hk, rfl⟩ := List.getElem?_eq_some_iff.mp hc
    exact ⟨callers.take k, callers.drop (k + 1), by simp, by simp [Nat.min_eq_left hk.le]⟩
  have herase : (before ++ c :: after).eraseIdx before.length = before ++ after := by
    rw [List.eraseIdx_append_of_length_le (Nat.le_refl _), Nat.sub_self, List.eraseIdx_cons_zero]
  rw [herase, waitingPackets_append, waitingPackets_append, waitingPackets, waitingPackets,
    waitingPackets, List.filterMap_cons]
  cases hpacket : c.packet with
  | none => rfl
  | some packet =>
      -- all other tasks are others than `ipv4_task`
      have htask : c.request.task = ipv4TaskHandle :=
        (hpackets c (by simp)).mp (by simp [hpacket])
      rw [List.map_append, List.map_cons, List.nodup_middle, List.nodup_cons, htask,
        ← List.map_append] at hsingle
      have hnone : waitingPackets (before ++ after) = [] := by
        refine waitingPackets_eq_nil (fun d hd => hpackets d ?_) fun d hd hdtask => hsingle.1 ?_
        · rcases List.mem_append.mp hd with hd | hd <;> simp [hd]
        · exact List.mem_map.mpr ⟨d, hd, hdtask⟩
      obtain ⟨hbefore, hafter⟩ := List.append_eq_nil_iff.mp
        ((waitingPackets_append before after).symm.trans hnone)
      rw [waitingPackets] at hbefore hafter
      rw [hbefore, hafter]
      rfl

/-- The packets behind the events of a history. -/
theorem packet_sentEvent (r : Arp.System) (c : Arp.ArpCaller) (eth : Eth.EthEnv) :
    (Arp.sentEvent r c eth).filterMap Arp.NodeEvent.packet? = (c.packet.map (·.1)).toList := by
  cases hpacket : c.packet <;> simp [Arp.sentEvent, hpacket, Arp.NodeEvent.packet?]

/-- Packets enter the queue and nobody else moves. -/
theorem Consumed.enqueue {packets : List Ipv4TransmitParams} (hs : Consumed s)
    (harp : s'.arp = s.arp) (haccepted : s'.accepted = s.accepted ++ packets)
    (hqueue : s'.transmitQueue = s.transmitQueue ++ packets) : Consumed s' := by
  refine ⟨harp ▸ hs.single, harp ▸ hs.packets, ?_⟩
  rw [haccepted, hqueue, hs.order, finished, finished, inHand, inHand, harp]
  simp

/-- A task begins to wait. -/
theorem Consumed.begin {r : Arp.System} {request : Arp.ArpRequest}
    {packet : Option (Ipv4TransmitParams × Memory)} {queue : List Ipv4TransmitParams} {c : RxCounters}
    (hs : Consumed s) (hr : Arp.beginRequest s.arp request packet = some r)
    (hpacket : packet.isSome = true ↔ request.task = ipv4TaskHandle)
    (hqueue : s.transmitQueue = (packet.map (·.1)).toList ++ queue) :
    Consumed { s with arp := r, transmitQueue := queue, counters := c } := by
  obtain ⟨hidle, -, rfl⟩ := Arp.beginRequest_some hr
  refine ⟨?_, ?_, ?_⟩
  · rw [List.map_append, List.map_singleton, List.nodup_append_comm, List.singleton_append,
      List.nodup_cons]
    refine ⟨fun hmem => ?_, hs.single⟩
    obtain ⟨d, hd, htask⟩ := List.mem_map.mp hmem
    exact hidle d hd htask
  · intro d hd
    rcases List.mem_append.mp hd with hd | hd
    · exact hs.packets d hd
    · obtain rfl := List.mem_singleton.mp hd
      exact hpacket
  · have horder := hs.order
    rw [hqueue] at horder
    rw [horder]
    simp only [finished, inHand, waitingPackets_append, List.append_assoc]
    cases packet with
    | none => simp [waitingPackets]
    | some p => simp [waitingPackets]

theorem Consumed.step (hs : Consumed s) (h : step s a = some s') : Consumed s' := by
  cases step_moves h with
  | counted c => exact ⟨hs.single, hs.packets, hs.order⟩
  | tcp | udp | icmp => exact hs.enqueue rfl rfl rfl
  | @arp _ b r c hb hr =>
      cases hb with
      | arpTask =>
          obtain rfl := Option.some.inj hr
          exact ⟨hs.single, hs.packets, hs.order⟩
      | arpGetMacAddr htask =>
          exact hs.begin hr (by simp [htask]) rfl
      | @resume k eth =>
          obtain ⟨d, hd, -, rfl⟩ := Arp.resumeCaller_some hr
          refine ⟨?_, fun e he => hs.packets e (List.mem_of_mem_eraseIdx he), ?_⟩
          · exact hs.single.sublist ((List.eraseIdx_sublist _ _).map _)
          · have herase := waitingPackets_eraseIdx hd hs.single hs.packets
            rw [hs.order, finished, finished, List.filterMap_append, packet_sentEvent, inHand,
              herase]
            simp [inHand]
      | arrived =>
          obtain rfl := Option.some.inj hr
          refine ⟨hs.single, hs.packets, ?_⟩
          rw [hs.order, finished, finished, List.filterMap_append]
          simp [inHand, Arp.NodeEvent.packet?]
  | @ipv4Task malloc params rest r hfree hqueue hr =>
      have hother : ∀ c ∈ s.arp.callers, c.request.task ≠ ipv4TaskHandle := by
        simpa [ipv4TaskWaits] using hfree
      have hnone : s.inHand = [] := waitingPackets_eq_nil hs.packets hother
      cases malloc with
      | none =>
          obtain rfl := Option.some.inj hr
          refine ⟨hs.single, hs.packets, ?_⟩
          have horder := hs.order
          rw [hnone, hqueue] at horder
          rw [horder]
          change _ = List.filterMap _ (_ ++ _) ++ s.inHand ++ rest
          rw [hnone, List.filterMap_append]
          simp [finished, Arp.NodeEvent.packet?]
      | some heap => exact hs.begin hr (by simp) hqueue

theorem consumed_of_run {as : List NodeAction} (hrun : run step (boot net) as = some s) :
    Consumed s :=
  run_invariant (P := Consumed) (C := fun _ _ => True) (fun _ _ _ hs _ h => hs.step h)
    (consumed_boot net) (guarded_true _ as) hrun

/-- Every packet that is waited with is one that `ipv4_task` waits with. -/
theorem length_waitingPackets {callers : List Arp.ArpCaller}
    (hpackets : ∀ c ∈ callers, c.packet.isSome = true ↔ c.request.task = ipv4TaskHandle) :
    (waitingPackets callers).length = (callers.map (·.request.task)).count ipv4TaskHandle := by
  induction callers with
  | nil => rfl
  | cons c callers ih =>
      have hc := hpackets c List.mem_cons_self
      have hrest := ih fun d hd => hpackets d (List.mem_cons_of_mem c hd)
      rw [waitingPackets] at hrest ⊢
      rw [List.filterMap_cons, List.map_cons, List.count_cons]
      cases hpacket : c.packet with
      | none =>
          have hother : c.request.task ≠ ipv4TaskHandle := fun htask => by simp [hpacket, htask] at hc
          simpa [hother] using hrest
      | some packet =>
          have htask : c.request.task = ipv4TaskHandle := hc.mp (by simp [hpacket])
          simpa [htask] using hrest

/-- **Packets are sent in the order in which they were queued, each once.** -/
theorem packets_in_order {as : List NodeAction} (hrun : run step (boot net) as = some s) :
    s.accepted = s.finished ++ s.inHand ++ s.transmitQueue ∧ s.inHand.length ≤ 1 ∧
      ofProtocol Tcp.tcpProtocolNumber s.accepted = Tcp.handedOver s.tcp.g.log ∧
      ofProtocol Udp.udpProtocolNumber s.accepted = s.udp.transmitted := by
  have hs := consumed_of_run hrun
  have hmerged := merged_of_run hrun
  refine ⟨hs.order, ?_, hmerged.tcpPackets, hmerged.udpPackets⟩
  rw [inHand, length_waitingPackets hs.packets]
  exact List.nodup_iff_count_le_one.mp hs.single ipv4TaskHandle

/-- What the environment decides when nothing fails. -/
def rxEnv : RxEnv :=
  ⟨⟨fun _ => 0, ⟨some fun _ => 0, .ok⟩⟩, ⟨some ⟨0, fun _ => 0⟩, true⟩, some fun _ => 0⟩

/-- A host of the network 10.0.0.0. -/
def hostOf (n : BitVec 8) : NetContext := ⟨⟨2, 0, 0, 0, 0, n⟩, ⟨10, 0, 0, n⟩⟩

/-- An echo request of the second host to the first. -/
def echoRequestFrame : Memory :=
  .ofBytes ([2, 0, 0, 0, 0, 1] ++ [2, 0, 0, 0, 0, 2] ++ [8, 0] ++
    [0x45, 0, 0, 28, 0, 1, 0x40, 0, 128, 1, 0xE6, 0xDD, 10, 0, 0, 2, 10, 0, 0, 1] ++
    [8, 0, 0xE5, 0xCA, 0x12, 0x34, 0, 1])

/-- The ARP reply of the host `m` to the host `n`. -/
def arpReplyFrame (n m : BitVec 8) : Memory :=
  .ofBytes ([2, 0, 0, 0, 0, n] ++ [2, 0, 0, 0, 0, m] ++ [8, 6] ++ [0, 1, 8, 0, 6, 4, 0, 2] ++
    [2, 0, 0, 0, 0, m] ++ [10, 0, 0, m] ++ [2, 0, 0, 0, 0, n] ++ [10, 0, 0, n])

/-- An echo request is answered, and a datagram without data is queued behind the reply. -/
def answersPing : List NodeAction :=
  [.wifiRxcb echoRequestFrame 42 none rxEnv, .udp (.udpSend ⟨53, 53, ⟨10, 0, 0, 2⟩, none, 0⟩),
    .udp (.udpTask ⟨some ⟨1, fun _ => 0⟩, true⟩), .ipv4Task (some fun _ => 0),
    .arpTask ⟨0, 0, fun _ => 0, some fun _ => 0, .ok⟩, .wifiRxcb (arpReplyFrame 1 2) 42 none rxEnv,
    .arpTask ⟨0, 0, fun _ => 0, some fun _ => 0, .ok⟩, .resume 0 ⟨some fun _ => 0, .ok⟩]

theorem packets_in_order_ping :
    ∃ s, run step (boot (hostOf 1)) answersPing = some s ∧ s.finished.length = 1 ∧
      s.transmitQueue.length = 1 ∧ s.accepted = s.finished ++ s.inHand ++ s.transmitQueue := by
  obtain ⟨s, hs, hend⟩ := run_any (show (run step (boot (hostOf 1)) answersPing).any
    (fun s => s.finished.length == 1 && s.transmitQueue.length == 1) = true by decide +kernel)
  simp only [Bool.and_eq_true, beq_iff_eq] at hend
  exact ⟨s, hs, hend.1, hend.2, (packets_in_order hs).1⟩

end NetStack.Node
