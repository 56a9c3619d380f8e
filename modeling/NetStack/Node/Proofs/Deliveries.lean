import NetStack.Ipv4.Proofs.RoundTrip
import NetStack.Node.Proofs.Frames
import NetStack.Tcp.Proofs.Acceptance

/-!
# What arrives of a frame

A frame of a node that reaches another one, padded or not: if anything of it is handed to TCP there, it is
a segment that the TCP component of the sender has transmitted to that node.
-/

namespace NetStack.Node
open NetStack.Lib NetStack.Eth NetStack.Utility NetStack.WifiManager

section Received
variable {net : NetContext} {frame : Frame} {received : Memory}

/-- The frame of an ARP packet is for ARP. -/
theorem ethertype_of_speaksFor {mac : MacAddr} {ip : Ipv4Addr} (h : Arp.SpeaksFor mac ip frame)
    (hreceived : Memory.AgreeBelow frame.len.toNat frame.bytes received) :
    ethertype received = Arp.arpEthertype := by
  have hlen : frame.len.toNat = 42 := congrArg BitVec.toNat h.length
  have hheader := h.header
  rw [← hreceived.load (by rw [hlen]; decide)] at hheader
  exact ethertype_of_load hheader

/-- The frame of a packet is for IPv4. -/
theorem ethertype_of_encodes {params : Ipv4TransmitParams} (hown : OwnPacket net params)
    (h : Encodes net params frame)
    (hreceived : Memory.AgreeBelow frame.len.toNat frame.bytes received) :
    ethertype received = ipv4Ethertype := by
  have hlen := h.length hown
  obtain ⟨dstMac, hcontent⟩ := h
  have hsplit : frame.len.toNat = 14 + (20 + params.dataLen.toNat) := by omega
  rw [Frame.content, ← hreceived.load (by omega), hsplit, Memory.load_add] at hcontent
  exact ethertype_of_load (List.append_inj_left hcontent (by simp))

/-- The packet in a frame. -/
theorem load_of_encodes {params : Ipv4TransmitParams} (hown : OwnPacket net params)
    (h : Encodes net params frame)
    (hreceived : Memory.AgreeBelow frame.len.toNat frame.bytes received) :
    (bufferData received).load 0 (20 + params.dataLen.toNat) =
      Ipv4.headerBytes params ++ params.payload := by
  have hlen := h.length hown
  obtain ⟨dstMac, hcontent⟩ := h
  have hsplit : frame.len.toNat = 14 + (20 + params.dataLen.toNat) := by omega
  rw [Frame.content, ← hreceived.load (by omega), hsplit, Memory.load_add] at hcontent
  have hpacket := List.append_inj_right hcontent (by simp)
  rw [bufferData, Memory.load_advance]
  simpa using hpacket

/-- What TCP gets of a packet. -/
theorem inputTcp_of_load {net' : NetContext} {params : Ipv4TransmitParams} {buffer data : Memory}
    {bufferLen length : BitVec 16} {src : Ipv4Addr} (hown : OwnPacket net params)
    (hload : buffer.load 0 (20 + params.dataLen.toNat) = Ipv4.headerBytes params ++ params.payload)
    (hcall : Ipv4.ipv4Input net' buffer bufferLen = some (.inputTcp data length src)) :
    params.protocol = Tcp.tcpProtocolNumber ∧ params.dstIpv4Addr = net'.ip ∧ src = net.ip ∧
      length = params.dataLen ∧ data.load 0 params.dataLen.toNat = params.payload := by
  rw [Memory.load_add] at hload
  obtain ⟨hheader, hpayload⟩ := List.append_inj hload (by simp)
  obtain ⟨-, htotal, hprotocol, hsrc, hdst⟩ := Ipv4.read_headerBytes hheader
  obtain ⟨hpasses, hdispatch⟩ := Ipv4.ipv4Input_eq_some_iff.mp hcall
  unfold Ipv4.dispatchProtocol at hdispatch
  split_ifs at hdispatch with hicmp htcp
  · cases Option.some.inj hdispatch
  · obtain ⟨rfl, rfl, rfl⟩ := Ipv4.Ipv4Call.inputTcp.inj (Option.some.inj hdispatch)
    refine ⟨hprotocol.symm.trans htcp, hdst.symm.trans hpasses.dst, hsrc.trans hown.src, ?_, ?_⟩
    · rw [Ipv4.totalLength, htotal, BitVec.add_comm]
      exact BitVec.add_sub_cancel _ _
    · rw [Memory.load_advance]
      exact hpayload

end Received

variable {net net' : NetContext} {s : Node} {as : List NodeAction}

/-- **What TCP gets of a frame has been transmitted by the TCP component of its sender.** -/
theorem delivers_of_frame (hrun : run step (boot net) as = some s)
    (hg : Guarded step (fun _ a => a.fits = true) (boot net) as) {frame : Frame}
    (hframe : frame ∈ s.frames) {received buffer data : Memory} {len bufferLen length : BitVec 16}
    {src : Ipv4Addr} (hreceived : Memory.AgreeBelow frame.len.toNat frame.bytes received)
    (hdispatch : dispatch received len = some (.ipv4Input buffer bufferLen))
    (hcall : Ipv4.ipv4Input net' buffer bufferLen = some (.inputTcp data length src)) :
    src = net.ip ∧ ∃ t ∈ Tcp.transmissions s.tcp.g.log, t.params.dstIpv4Addr = net'.ip ∧
      Tcp.Delivers t ⟨data, length, src⟩ := by
  obtain ⟨hethertype, rfl, -⟩ := dispatch_ipv4Input hdispatch
  rcases frame_of_run hrun hg hframe with harp | ⟨params, haccepted, hencodes⟩
  · rw [ethertype_of_speaksFor harp hreceived] at hethertype
    exact absurd hethertype (by decide)
  · have hmerged := merged_of_run hrun
    have hown := hmerged.own params haccepted
    obtain ⟨hprotocol, hdst, rfl, rfl, hpayload⟩ :=
      inputTcp_of_load hown (load_of_encodes hown hencodes hreceived) hcall
    have htcp : params ∈ Tcp.handedOver s.tcp.g.log := by
      rw [← hmerged.tcpPackets, ofProtocol, List.mem_filter]
      exact ⟨haccepted, beq_iff_eq.mpr hprotocol⟩
    obtain ⟨t, ht, -, rfl⟩ := Tcp.mem_handedOver.mp htcp
    have haddressed := hmerged.tcp.sent t ht
    refine ⟨rfl, t, ht, haddressed.dst.symm.trans hdst, rfl, fun block hblock k hk => ?_,
      haddressed.src.symm⟩
    rw [Ipv4TransmitParams.payload, hblock] at hpayload
    simpa using Memory.agreeBelow_of_load hpayload k hk

end NetStack.Node
