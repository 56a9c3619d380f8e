import NetStack.Arp.Proofs.Speech
import NetStack.Node.Proofs.TransmitQueue

/-!
# What a node puts on the air

Every frame of a node comes from its own addresses. A frame with an IPv4 packet is the encoding of a
packet that one of the protocols has queued, whole and unchanged; the packets behind the frames are in the
order in which they were queued, and none of them is sent twice.
-/

namespace NetStack
open NetStack.Lib NetStack.Eth NetStack.Utility NetStack.WifiManager

/-- The frame is the encoding of a packet: the header of the frame, the header of the packet and the
    payload, and nothing behind them. -/
def Encodes (net : NetContext) (params : Ipv4TransmitParams) (frame : Frame) : Prop :=
  ∃ dstMac, frame.content =
    frameHeader dstMac net.mac ipv4Ethertype ++ (Ipv4.headerBytes params ++ params.payload)

theorem length_payload {net : NetContext} {params : Ipv4TransmitParams} (h : OwnPacket net params) :
    params.payload.length = params.dataLen.toNat := by
  obtain ⟨block, hblock⟩ := Option.isSome_iff_exists.mp h.data
  simp [Ipv4TransmitParams.payload, hblock]

theorem Encodes.length {net : NetContext} {params : Ipv4TransmitParams} {frame : Frame}
    (hown : OwnPacket net params) (h : Encodes net params frame) :
    frame.len.toNat = 34 + params.dataLen.toNat := by
  obtain ⟨dstMac, hcontent⟩ := h
  have hlength := congrArg List.length hcontent
  simp only [Frame.content, Memory.load_length, List.length_append, frameHeader_length,
    Ipv4.headerBytes_length, length_payload hown] at hlength
  omega

/-- A packet that fits is encoded. -/
theorem encodes_of_sent {net : NetContext} {params : Ipv4TransmitParams} {env : Ipv4.SendEnv}
    {frame : Frame} (hown : OwnPacket net params) (hfits : FitsFrame params)
    (h : (Ipv4.internalSendIpv4Packet net params env).frame = some frame) :
    Encodes net params frame := by
  rw [FitsFrame] at hfits
  obtain ⟨heap, dstMac, hframe⟩ := Ipv4.ethTx_of_frame h
  have hpacketLen : (Ipv4.headerLength + params.dataLen).toNat = 20 + params.dataLen.toNat :=
    Ipv4.toNat_packetLen (by omega)
  have hcontent := load_ethTx hframe
  refine ⟨dstMac, ?_⟩
  rw [Frame.content, len_ethTx hframe, toNat_len (by rw [hpacketLen]; omega), hcontent, hpacketLen,
    Ipv4.load_packet heap (.inl hown.data)]

namespace Node
variable {net : NetContext} {s s' : Node} {a : NodeAction}

/-- What a node says comes from its addresses, and of packets it sends what
    `internal_send_ipv4_packet` makes of them. -/
structure Honest (net : NetContext) (s : Node) : Prop where
  selfNet : s.arp.selfNet = net
  ip : s.arp.arp.selfIpAddr = net.ip
  mac : s.arp.arp.selfMacAddr = net.mac
  arpFrames : ∀ f ∈ s.arpFrames, Arp.SpeaksFor net.mac net.ip f
  sent : ∀ params result, .sent params result ∈ s.arp.history →
    ∃ env, result = Ipv4.internalSendIpv4Packet net params env

theorem honest_boot (net : NetContext) : Honest net (boot net) :=
  ⟨rfl, rfl, rfl, by simp [arpFrames, boot, Arp.boot], by simp [boot, Arp.boot]⟩

/-- A step of the ARP component. -/
theorem Honest.stepArp {b : Arp.Action} (hs : Honest net s) (harp : Arp.step s.arp b = some s'.arp) :
    Honest net s' := by
  obtain ⟨hip, hmac, events, hlog, hframes⟩ := Arp.step_speaks harp
  obtain ⟨sent, hhistory, hsent⟩ := Arp.step_history harp
  refine ⟨(Arp.step_selfNet harp).trans hs.selfNet, hip.trans hs.ip, hmac.trans hs.mac, ?_, ?_⟩
  · rw [Node.arpFrames, hlog, List.filterMap_append]
    rw [hs.mac, hs.ip] at hframes
    exact List.forall_mem_append.mpr ⟨hs.arpFrames, hframes⟩
  · intro params result hmem
    rw [hhistory] at hmem
    rcases List.mem_append.mp hmem with hmem | hmem
    · exact hs.sent params result hmem
    · exact hs.selfNet ▸ hsent params result hmem

theorem Honest.step (hs : Honest net s) (h : step s a = some s') : Honest net s' := by
  cases step_moves h with
  | counted | tcp | udp | icmp => exact ⟨hs.selfNet, hs.ip, hs.mac, hs.arpFrames, hs.sent⟩
  | arp _ _ hr => exact hs.stepArp hr
  | ipv4Task _ _ hr => exact hs.stepArp hr

theorem honest_of_run {as : List NodeAction} (hrun : run step (boot net) as = some s) :
    Honest net s :=
  run_invariant (P := Honest net) (C := fun _ _ => True) (fun _ _ _ hs _ h => hs.step h)
    (honest_boot net) (guarded_true _ as) hrun

end Node

/-! ### Lengths -/

/-- No application asks for more than a frame can hold, and what arrives is long enough for the header
    of a frame. A shorter frame is not refused: the length that `wifi_rxcb` passes on wraps, and the
    protocols read bytes that have not arrived. -/
def NodeAction.fits : NodeAction → Bool
  | .tcp a => a.isShort
  | .udp (.udpSend params) => params.dataLen.toNat ≤ 65493
  | .wifiRxcb _ len _ _ => 14 ≤ len.toNat
  | _ => true

namespace Node
variable {net : NetContext} {s s' : Node} {a : NodeAction}

/-- What is queued anywhere fits into a frame. -/
structure Fitting (s : Node) : Prop where
  tcp : Tcp.Requests Tcp.Short s.tcp.g
  udp : ∀ params ∈ s.udp.g.sendQueue, params.dataLen.toNat ≤ 65493
  accepted : ∀ p ∈ s.accepted, FitsFrame p

theorem fitting_boot (net : NetContext) : Fitting (boot net) :=
  ⟨Tcp.requests_boot net, by simp [boot, Udp.boot], by simp [boot]⟩

theorem isShort_of_runsTcp {b : Tcp.Action} (hb : RunsTcp s a b) (hc : a.fits = true) :
    b.isShort = true := by
  cases hb with
  | own => exact hc
  | arrived => rfl

theorem Fitting.step (hs : Fitting s) (hc : a.fits = true) (h : step s a = some s') :
    Fitting s' := by
  cases step_moves h with
  | counted | arp | ipv4Task => exact ⟨hs.tcp, hs.udp, hs.accepted⟩
  | @tcp _ b t c hb ht =>
      have htcp := hs.tcp.step_short (isShort_of_runsTcp hb hc) ht
      refine ⟨htcp, hs.udp, List.forall_mem_append.mpr ⟨hs.accepted, fun p hp => ?_⟩⟩
      apply Tcp.fitsFrame_of_handedOver htcp
      rw [Tcp.step_handedOver ht]
      exact List.mem_append_right _ hp
  | @udp b u hu =>
      obtain ⟨-, hwaiting, packets, hpackets, hdatagrams⟩ := Udp.step_sends hu
      refine ⟨hs.tcp, fun params hparams => ?_, List.forall_mem_append.mpr ⟨hs.accepted, ?_⟩⟩
      · rcases hwaiting params hparams with hold | rfl
        · exact hs.udp params hold
        · simpa [NodeAction.fits] using hc
      · rw [hpackets, List.drop_left]
        intro p hp
        obtain ⟨params, hparams, hfor⟩ := hdatagrams p hp
        have hshort := hs.udp params hparams
        rw [FitsFrame, hfor.dataLen, BitVec.toNat_add]
        change 34 + (8 + params.dataLen.toNat) % 65536 < 65536
        omega
  | @icmp frame data buffer len dataLen bufferLen eb env c hdispatch hcall =>
      refine ⟨hs.tcp, hs.udp, List.forall_mem_append.mpr ⟨hs.accepted, fun p hp => ?_⟩⟩
      obtain ⟨-, -, hlen⟩ := Icmpv4.reply_of_ipv4Input hcall (Option.mem_toList.mp hp)
      have hshort : 14 ≤ len.toNat := by simpa [NodeAction.fits] using hc
      obtain ⟨-, -, rfl⟩ := dispatch_ipv4Input hdispatch
      rw [toNat_bufferDataLen hshort] at hlen
      have hbound := len.isLt
      rw [FitsFrame]
      omega

theorem fitting_of_run {as : List NodeAction} (hrun : run step (boot net) as = some s)
    (hg : Guarded step (fun _ a => a.fits = true) (boot net) as) : Fitting s :=
  run_invariant (P := Fitting) (fun _ _ _ hs hc h => hs.step hc h) (fitting_boot net) hg hrun

/-- The frames behind the events of a history, with their packets. -/
theorem exists_packets_of_frames {R : Ipv4TransmitParams → Frame → Prop} (history : List Arp.NodeEvent)
    (h : ∀ params result f, .sent params result ∈ history → result.frame = some f → R params f) :
    ∃ packets, packets.Sublist (history.filterMap Arp.NodeEvent.packet?) ∧
      List.Forall₂ R packets (history.filterMap Arp.NodeEvent.frame?) := by
  induction history with
  | nil => exact ⟨[], List.Sublist.refl _, .nil⟩
  | cons e history ih =>
      obtain ⟨packets, hsublist, hpackets⟩ := ih fun params result f hmem =>
        h params result f (List.mem_cons_of_mem e hmem)
      rw [List.filterMap_cons, List.filterMap_cons]
      cases e with
      | arpInput => exact ⟨packets, hsublist, hpackets⟩
      | sent params result =>
          simp only [Arp.NodeEvent.packet?, Arp.NodeEvent.frame?]
          cases hframe : result.frame with
          | none => exact ⟨packets, hsublist.cons params, hpackets⟩
          | some f =>
              refine ⟨params :: packets, hsublist.cons_cons params, .cons ?_ hpackets⟩
              exact h params result f List.mem_cons_self hframe

section Runs
variable {as : List NodeAction}

theorem prefix_finished (hrun : run step (boot net) as = some s) : s.finished <+: s.accepted := by
  rw [(consumed_of_run hrun).order, List.append_assoc]
  exact List.prefix_append _ _

/-- The frame behind an event of the history is the encoding of its packet. -/
theorem encodes_of_run (hrun : run step (boot net) as = some s)
    (hg : Guarded step (fun _ a => a.fits = true) (boot net) as) {params : Ipv4TransmitParams}
    {result : Ipv4.Sent} {f : Frame} (hmem : .sent params result ∈ s.arp.history)
    (hframe : result.frame = some f) : params ∈ s.accepted ∧ Encodes net params f := by
  have haccepted : params ∈ s.accepted :=
    (prefix_finished hrun).subset (List.mem_filterMap.mpr ⟨_, hmem, rfl⟩)
  obtain ⟨env, rfl⟩ := (honest_of_run hrun).sent params result hmem
  exact ⟨haccepted, encodes_of_sent ((merged_of_run hrun).own params haccepted)
    ((fitting_of_run hrun hg).accepted params haccepted) hframe⟩

/-- A frame is an ARP packet of the node or the encoding of a packet that has been queued. -/
theorem frame_of_run (hrun : run step (boot net) as = some s)
    (hg : Guarded step (fun _ a => a.fits = true) (boot net) as) {f : Frame} (hf : f ∈ s.frames) :
    Arp.SpeaksFor net.mac net.ip f ∨ ∃ p ∈ s.accepted, Encodes net p f := by
  rcases List.mem_append.mp hf with hf | hf
  · exact .inl ((honest_of_run hrun).arpFrames f hf)
  · obtain ⟨e, he, hframe⟩ := List.mem_filterMap.mp hf
    cases e with
    | arpInput => cases hframe
    | sent params result => exact .inr ⟨params, encodes_of_run hrun hg he hframe⟩

/-- **A node sends what its protocols have queued, in its own name.** -/
theorem frames_encode_packets (hrun : run step (boot net) as = some s)
    (hg : Guarded step (fun _ a => a.fits = true) (boot net) as) :
    (∃ packets, packets.Sublist s.accepted ∧ List.Forall₂ (Encodes net) packets s.ipv4Frames) ∧
      (∀ p ∈ s.accepted, p.srcIpv4Addr = net.ip) ∧
      ∀ f ∈ s.arpFrames, Arp.SpeaksFor net.mac net.ip f := by
  obtain ⟨packets, hsublist, hpackets⟩ := exists_packets_of_frames (R := Encodes net) s.arp.history
    fun _ _ _ hmem hframe => (encodes_of_run hrun hg hmem hframe).2
  exact ⟨⟨packets, hsublist.trans (prefix_finished hrun).sublist, hpackets⟩,
    fun p hp => ((merged_of_run hrun).own p hp).src, (honest_of_run hrun).arpFrames⟩

end Runs

theorem frames_encode_packets_ping :
    ∃ s, run step (boot (hostOf 1)) answersPing = some s ∧ s.ipv4Frames.length = 1 ∧
      s.arpFrames.length = 1 ∧
      ∃ packets, packets.Sublist s.accepted ∧
        List.Forall₂ (Encodes (hostOf 1)) packets s.ipv4Frames := by
  obtain ⟨s, hs, hend⟩ := run_any (show (run step (boot (hostOf 1)) answersPing).any
    (fun s => s.ipv4Frames.length == 1 && s.arpFrames.length == 1) = true by decide +kernel)
  simp only [Bool.and_eq_true, beq_iff_eq] at hend
  exact ⟨s, hs, hend.1, hend.2, (frames_encode_packets hs (by decide +kernel)).1⟩

end Node

end NetStack
